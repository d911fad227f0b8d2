import Mathlib.Algebra.BigOperators.Ring.List
import StonksPaper.Base.Aligned
import StonksPaper.Base.RelativeError
import StonksPaper.Effects.Trading
import StonksPaper.Risk.Authorize
import StonksPaper.Risk.Covered

/-!
# The cash that an authorisation reserves

The gate compares one total with the available cash; the authorisation splits the expected cost by
value and rounds every purchase up apart. So the reservations of an approved batch can pass the
available cash, by a quantum for each purchase at most, and then the balance check of the batch
refuses it. The errors of the context's digits stay below one quantum.
-/

namespace StonksPaper

open Chain Quantum

def cashAmount (pairs : List ReservationOrderPair) : Decimal :=
  ((pairs.filter fun pair => pair.1.reservation.kind = .cash).map
    fun pair => pair.1.reservation.amount).sum

section

variable [Hashing]

/-! ## What is built -/

section

variable [Arithmetic] {command : RiskAuthorizationCommand} {policy : HardRiskPolicy}
  {decision : RiskDecision}
  {target : PortfolioTarget} {pairs : List ReservationOrderPair} {cash : CashBalance}

omit [Arithmetic] in
/-- A reservation that is created is the opening one for an authorised target, and valid. -/
theorem createReservation_eq_success {reservationId orderIntentId : UUID} {kind : ReservationKind}
    {commodity : String} {amount quantum : Decimal} {instrumentId : Option UUID}
    {at_ expiresAt : UTCDateTime} {account portfolio : ℕ} {m : ReservationMutation}
    (h : createReservation reservationId orderIntentId decision kind commodity amount quantum
      instrumentId at_ expiresAt account portfolio = .success m) :
    m.reservation.Valid ∧ ∃ targetHash, m = openingMutation reservationId orderIntentId decision
      targetHash kind commodity amount quantum instrumentId at_ expiresAt account portfolio := by
  simp only [createReservation, Attempt.bind_eq_success, failUnless_eq_success] at h
  obtain ⟨_, -, _, -, h⟩ := h
  split at h
  · cases h
  · rename_i targetHash _
    simp only [exceptValueError_eq_success, Attempt.bind_eq_success,
      modelValidate_eq_success] at h
    obtain ⟨_, -, _, hvalid, -, rfl⟩ := h
    exact ⟨AccountReservation.validate_iff.mp hvalid, targetHash, rfl⟩

/-- What a built pair reserves for its allocation. -/
structure Reserves (command : RiskAuthorizationCommand) (target : PortfolioTarget)
    (cashQuantum : Decimal) (a : TargetAllocation) (pair : ReservationOrderPair) : Prop where
  valid : pair.1.reservation.Valid
  quantum : 0 < a.deltaQuantity → pair.1.reservation.quantum = cashQuantum
  kind : pair.1.reservation.kind = .cash ↔ 0 < a.deltaQuantity
  amount : pair.1.reservation.amount = reservedFor command target cashQuantum a
  commodity : 0 < a.deltaQuantity →
    pair.1.reservation.commodity = command.risk.target.costCurrency

theorem buildPair_eq_success {a : TargetAllocation} {plan : PlannedPaperOrder}
    {cashQuantum : Decimal} {pair : ReservationOrderPair}
    (h : buildPair command target a plan decision cashQuantum = .success pair) :
    Reserves command target cashQuantum a pair ∧
      pair.1.reservation.accountId = decision.accountId := by
  simp only [buildPair, Attempt.bind_eq_success, Attempt.pure_eq, Attempt.success.injEq] at h
  obtain ⟨m, hreserved, intent, -, rfl⟩ := h
  obtain ⟨hvalid, targetHash, rfl⟩ := createReservation_eq_success hreserved
  refine ⟨⟨hvalid, ?_, ?_, rfl, ?_⟩, rfl⟩
  · intro hbuy
    simp only [openingMutation]
    exact if_pos hbuy
  · simp only [openingMutation]
    by_cases hbuy : 0 < a.deltaQuantity <;> simp [hbuy]
  · intro hbuy
    simp only [openingMutation]
    exact if_pos hbuy

theorem buildPairs_eq_success (h : buildPairs command decision = .success pairs)
    (htarget : decision.normalizedTarget = some target)
    (hcash : Table.get (·.currency) command.risk.snapshot.cash target.costCurrency = some cash) :
    List.Forall₂ (fun a pair => Reserves command target cash.quantum a pair ∧
      pair.1.reservation.accountId = decision.accountId) target.traded pairs := by
  simp only [buildPairs, Attempt.bind_eq_success, orFail_eq_success, htarget,
    failUnless_eq_success] at h
  obtain ⟨_, heq, _, -, h⟩ := h
  cases heq
  split at h
  · cases h
  · simp only [Attempt.bind_eq_success, orFail_eq_success, hcash, failUnless_eq_success] at h
    obtain ⟨_, heq, _, -, h⟩ := h
    cases heq
    refine (Attempt.mapM_eq_success.mp h).imp fun a pair hpair => ?_
    obtain ⟨plan, -, hbuilt⟩ := Attempt.bind_eq_success.mp hpair
    exact buildPair_eq_success hbuilt

omit [Hashing] in
/-- The cash that pairs reserve is what is reserved for the purchases among their allocations. -/
theorem cashAmount_eq {cashQuantum : Decimal} {allocations : List TargetAllocation}
    (h : List.Forall₂ (Reserves command target cashQuantum) allocations pairs) :
    cashAmount pairs = ((allocations.filter (0 < ·.deltaQuantity)).map
      (reservedFor command target cashQuantum)).sum := by
  unfold cashAmount
  induction h with
  | nil => rfl
  | @cons a pair allocations pairs hpair _ ih =>
      by_cases hbuy : 0 < a.deltaQuantity
      · have hkind : pair.1.reservation.kind = .cash := hpair.kind.mpr hbuy
        simp only [List.filter_cons, hkind, hbuy, decide_true, if_true, List.map_cons,
          List.sum_cons, hpair.amount, ih]
      · have hkind : ¬ pair.1.reservation.kind = .cash := mt hpair.kind.mp hbuy
        simp only [List.filter_cons, hkind, hbuy, decide_false, Bool.false_eq_true, if_false, ih]

omit [Hashing] in
theorem cashAmount_quantized {cashQuantum : Decimal} {allocations : List TargetAllocation}
    (hquantum : 0 < cashQuantum)
    (h : List.Forall₂ (Reserves command target cashQuantum) allocations pairs) :
    IsQuantized (cashAmount pairs) cashQuantum := by
  refine Quantum.isQuantized_sum hquantum fun x hx => ?_
  obtain ⟨pair, hpair, rfl⟩ := List.mem_map.mp hx
  obtain ⟨hmem, hkind⟩ := List.mem_filter.mp hpair
  obtain ⟨a, -, hreserves⟩ := h.exists_left hmem
  have hbuy : 0 < a.deltaQuantity := hreserves.kind.mp (of_decide_eq_true hkind)
  exact hreserves.quantum hbuy ▸ hreserves.valid.amount_quantized

/-! ## Shares of the cost -/

theorem BuildRiskDecisionCommand.Valid.markPrice_nonneg {command : BuildRiskDecisionCommand}
    (hvalid : command.Valid) (instrumentId : UUID) : 0 ≤ command.markPrice instrumentId := by
  unfold BuildRiskDecisionCommand.markPrice
  cases hfound : command.instrument instrumentId with
  | none => exact le_rfl
  | some i =>
      have hmem : i ∈ command.instruments := List.mem_reverse.mp (Table.mem_of_get hfound)
      have hinstrument := hvalid.instruments i hmem
      simp only [RiskInstrumentState.validate, Attempt.bind_eq_success,
        positiveDecimal_eq_success] at hinstrument
      obtain ⟨_, -, _, -, _, -, _, hmark, -⟩ := hinstrument
      exact hmark.le

theorem BuildRiskDecisionCommand.Valid.cost_nonneg {command : BuildRiskDecisionCommand}
    (hvalid : command.Valid) : 0 ≤ command.target.expectedCost := by
  have htarget := hvalid.target
  simp only [PortfolioTarget.validate, Attempt.bind_eq_success, nonNegativeDecimal_eq_success]
    at htarget
  obtain ⟨_, -, _, -, _, -, _, -, _, -, _, -, _, hcost, -⟩ := htarget
  exact hcost

theorem notional_nonneg (hvalid : command.risk.Valid) (a : TargetAllocation) :
    0 ≤ notional command a :=
  kept_nonneg_iff.mpr <| mul_nonneg (kept_nonneg_iff.mpr (abs_nonneg _))
    (hvalid.markPrice_nonneg _)

theorem notional_of_buy (hvalid : command.risk.Valid) {a : TargetAllocation}
    (ha : a ∈ command.risk.buys) :
    notional command a = kept (a.deltaQuantity * command.risk.markPrice a.instrumentId) := by
  obtain ⟨hmem, hbuy⟩ := List.mem_filter.mp ha
  have hdelta : kept a.deltaQuantity = a.deltaQuantity := hvalid.delta_kept hmem
  rw [notional, abs_of_pos (of_decide_eq_true hbuy), hdelta]

omit [Arithmetic] [Hashing] in
theorem traded_buys (target : PortfolioTarget) :
    target.traded.filter (0 < ·.deltaQuantity) =
      target.allocations.filter (0 < ·.deltaQuantity) := by
  unfold PortfolioTarget.traded
  rw [List.filter_filter]
  refine List.filter_congr fun a _ => ?_
  by_cases hbuy : 0 < a.deltaQuantity
  · simp [hbuy, hbuy.ne']
  · simp [hbuy]

omit [Arithmetic] [Hashing] in
theorem sum_filter_le {α : Type} {f : α → Decimal} (p : α → Bool) {xs : List α}
    (h : ∀ x ∈ xs, 0 ≤ f x) : ((xs.filter p).map f).sum ≤ (xs.map f).sum := by
  induction xs with
  | nil => exact le_rfl
  | cons x xs ih =>
      have hx : 0 ≤ f x := h x (List.mem_cons_self ..)
      have hxs := ih fun y hy => h y (List.mem_cons_of_mem _ hy)
      rw [List.filter_cons]
      split
      · simpa using hxs
      · rw [List.map_cons, List.sum_cons]
        linarith

theorem BuildRiskDecisionCommand.Valid.allocations_length {command : BuildRiskDecisionCommand}
    (hvalid : command.Valid) : command.target.allocations.length ≤ tupleLimit := by
  have htarget := hvalid.target
  simp only [PortfolioTarget.validate, Attempt.bind_eq_success, maxLength_eq_success] at htarget
  obtain ⟨_, -, _, -, _, hlength, -⟩ := htarget
  exact hlength

def leastPart : ℚ := (1 - Arithmetic.context.unit) ^ tupleLimit

omit [Hashing] in
theorem leastPart_nonneg : 0 ≤ leastPart :=
  pow_nonneg (sub_nonneg.mpr (Context.unit_le_one _)) _

omit [Hashing] in
theorem leastPart_le_pow {n : ℕ} (h : n ≤ tupleLimit) :
    leastPart ≤ (1 - Arithmetic.context.unit) ^ n :=
  pow_le_pow_of_le_one (sub_nonneg.mpr (Context.unit_le_one _))
    (sub_le_self 1 (Context.unit_nonneg _)) h

omit [Hashing] in
theorem leastPart_le_one : leastPart ≤ 1 := by
  simpa using leastPart_le_pow (Nat.zero_le tupleLimit)

/-- The purchases are part of the total. -/
theorem leastPart_mul_buys_le (hvalid : command.risk.Valid) :
    leastPart * (command.risk.buys.map (notional command)).sum ≤
      totalNotional command command.risk.target := by
  have hnonneg (a : TargetAllocation) : 0 ≤ notional command a := notional_nonneg hvalid a
  have htraded : 0 ≤ (command.risk.target.traded.map (notional command)).sum :=
    List.sum_nonneg fun x hx => by
      obtain ⟨a, -, rfl⟩ := List.mem_map.mp hx
      exact hnonneg a
  have hpart : (command.risk.buys.map (notional command)).sum ≤
      (command.risk.target.traded.map (notional command)).sum := by
    unfold BuildRiskDecisionCommand.buys
    rw [← traded_buys]
    exact sum_filter_le _ fun a _ => hnonneg a
  have hlength : (command.risk.target.traded.map (notional command)).length ≤ tupleLimit := by
    rw [List.length_map]
    exact (List.length_filter_le _ _).trans hvalid.allocations_length
  calc leastPart * (command.risk.buys.map (notional command)).sum
      ≤ leastPart * (command.risk.target.traded.map (notional command)).sum :=
        mul_le_mul_of_nonneg_left hpart leastPart_nonneg
    _ ≤ _ := mul_le_mul_of_nonneg_right (leastPart_le_pow hlength) htraded
    _ ≤ totalNotional command command.risk.target := by
        refine Context.mul_le_sum _ fun x hx => ?_
        obtain ⟨a, -, rfl⟩ := List.mem_map.mp hx
        exact hnonneg a

theorem costShare_nonneg (hvalid : command.risk.Valid) (a : TargetAllocation) :
    0 ≤ costShare command command.risk.target a := by
  unfold costShare
  split
  · rename_i hbuy
    exact kept_nonneg_iff.mpr <| div_nonneg
      (kept_nonneg_iff.mpr (mul_nonneg hvalid.cost_nonneg (notional_nonneg hvalid a))) hbuy.2.le
  · exact le_rfl

/-- A share is in proportion to the value, but for the errors of a product and of a quotient. -/
theorem costShare_le (hvalid : command.risk.Valid) (a : TargetAllocation)
    (htotal : 0 < totalNotional command command.risk.target) :
    costShare command command.risk.target a ≤ (1 + Arithmetic.context.unit) ^ 2 *
      (command.risk.target.expectedCost / totalNotional command command.risk.target) *
        notional command a := by
  have hup : 0 ≤ 1 + Arithmetic.context.unit := add_nonneg zero_le_one (Context.unit_nonneg _)
  have hproduct : 0 ≤ command.risk.target.expectedCost * notional command a :=
    mul_nonneg hvalid.cost_nonneg (notional_nonneg hvalid a)
  unfold costShare
  split
  · have hkept := Arithmetic.context.round_le_mul hproduct
    have hquotient := Arithmetic.context.round_le_mul
      (div_nonneg (kept_nonneg_iff.mpr hproduct) htotal.le)
    refine hquotient.trans ?_
    calc (1 + Arithmetic.context.unit) *
          (kept (command.risk.target.expectedCost * notional command a) /
            totalNotional command command.risk.target)
        ≤ (1 + Arithmetic.context.unit) * ((1 + Arithmetic.context.unit) *
            (command.risk.target.expectedCost * notional command a) /
              totalNotional command command.risk.target) :=
          mul_le_mul_of_nonneg_left (div_le_div_of_nonneg_right hkept htotal.le) hup
      _ = _ := by ring
  · exact mul_nonneg (mul_nonneg (pow_nonneg hup 2) (div_nonneg hvalid.cost_nonneg htotal.le))
      (notional_nonneg hvalid a)

/-- The purchases' shares add up to the expected cost at most, but for the errors: sales have a
share of the value, which no reservation holds. -/
theorem sum_costShare_le (hvalid : command.risk.Valid) :
    leastPart * (command.risk.buys.map (costShare command command.risk.target)).sum ≤
      (1 + Arithmetic.context.unit) ^ 2 * command.risk.target.expectedCost := by
  have hup : 0 ≤ 1 + Arithmetic.context.unit := add_nonneg zero_le_one (Context.unit_nonneg _)
  by_cases htotal : 0 < totalNotional command command.risk.target
  · have hrate : 0 ≤ (1 + Arithmetic.context.unit) ^ 2 * (command.risk.target.expectedCost /
        totalNotional command command.risk.target) :=
      mul_nonneg (pow_nonneg hup 2) (div_nonneg hvalid.cost_nonneg htotal.le)
    have hshares : (command.risk.buys.map (costShare command command.risk.target)).sum ≤
        (1 + Arithmetic.context.unit) ^ 2 * (command.risk.target.expectedCost /
          totalNotional command command.risk.target) *
            (command.risk.buys.map (notional command)).sum := by
      rw [← List.sum_map_mul_left]
      exact List.sum_le_sum fun a _ => costShare_le hvalid a htotal
    calc leastPart * (command.risk.buys.map (costShare command command.risk.target)).sum
        ≤ (1 + Arithmetic.context.unit) ^ 2 * (command.risk.target.expectedCost /
            totalNotional command command.risk.target) *
              (leastPart * (command.risk.buys.map (notional command)).sum) := by
          rw [mul_left_comm]
          exact mul_le_mul_of_nonneg_left hshares leastPart_nonneg
      _ ≤ (1 + Arithmetic.context.unit) ^ 2 * (command.risk.target.expectedCost /
            totalNotional command command.risk.target) *
              totalNotional command command.risk.target :=
          mul_le_mul_of_nonneg_left (leastPart_mul_buys_le hvalid) hrate
      _ = _ := by rw [mul_assoc, div_mul_cancel₀ _ htotal.ne']
  · have hzero : command.risk.buys.map (costShare command command.risk.target) =
        command.risk.buys.map fun _ => 0 := by
      refine List.map_congr_left fun a _ => ?_
      exact if_neg fun h => htotal h.2
    rw [hzero]
    simpa using mul_nonneg (pow_nonneg hup 2) hvalid.cost_nonneg

/-- The expected cost and the values of the purchases are available when the gate passed, but for
the errors of the running total. -/
theorem Approves.required_le (h : Approves command.risk policy) (hvalid : command.risk.Valid)
    (hcash : command.risk.cash = some cash) :
    leastPart * (command.risk.target.expectedCost +
        (command.risk.buys.map (notional command)).sum) ≤
      (1 + Arithmetic.context.unit) * (cash.settledAmount - cash.reservedAmount) := by
  obtain ⟨_, hfound, hrequired⟩ := h.cash
  rw [hcash] at hfound
  cases hfound
  have hbalance := hvalid.cash cash (Table.mem_of_get hcash)
  simp only [CashBalance.validate, Attempt.bind_eq_success, raiseUnless_eq_success] at hbalance
  obtain ⟨_, -, _, -, _, -, _, -, _, hle, -⟩ := hbalance
  have havailable := Arithmetic.context.round_le_mul (sub_nonneg.mpr hle)
  have hvalues : (command.risk.buys.map fun a =>
      kept (a.deltaQuantity * command.risk.markPrice a.instrumentId)) =
        command.risk.buys.map (notional command) :=
    List.map_congr_left fun a ha => (notional_of_buy hvalid ha).symm
  have hnonneg : ∀ x ∈ command.risk.buys.map (notional command), 0 ≤ x := by
    intro x hx
    obtain ⟨a, -, rfl⟩ := List.mem_map.mp hx
    exact notional_nonneg hvalid a
  have hlength : (command.risk.buys.map (notional command)).length ≤ tupleLimit := by
    rw [List.length_map]
    exact (List.length_filter_le _ _).trans hvalid.allocations_length
  have hsum : 0 ≤ command.risk.target.expectedCost +
      (command.risk.buys.map (notional command)).sum :=
    add_nonneg hvalid.cost_nonneg (List.sum_nonneg hnonneg)
  rw [requiredCash, hvalues] at hrequired
  calc leastPart * (command.risk.target.expectedCost +
        (command.risk.buys.map (notional command)).sum)
      ≤ _ := mul_le_mul_of_nonneg_right (leastPart_le_pow hlength) hsum
    _ ≤ _ := Arithmetic.context.mul_le_foldl hvalid.cost_nonneg hnonneg
    _ ≤ cash.availableAmount := hrequired
    _ ≤ _ := havailable

def purchaseAmounts (command : RiskAuthorizationCommand) : List Decimal :=
  command.risk.buys.map fun a =>
    kept (notional command a + costShare command command.risk.target a)

theorem purchaseAmounts_nonneg (hvalid : command.risk.Valid) :
    ∀ x ∈ purchaseAmounts command, 0 ≤ x := by
  intro x hx
  obtain ⟨a, -, rfl⟩ := List.mem_map.mp hx
  exact kept_nonneg_iff.mpr (add_nonneg (notional_nonneg hvalid a) (costShare_nonneg hvalid a))

/-- What the purchases take fits when the gate passed, but for the errors. -/
theorem Approves.purchases_le (h : Approves command.risk policy) (hvalid : command.risk.Valid)
    (hcash : command.risk.cash = some cash) :
    leastPart ^ 2 * (purchaseAmounts command).sum ≤
      (1 + Arithmetic.context.unit) ^ 4 * (cash.settledAmount - cash.reservedAmount) := by
  have hunit := Context.unit_nonneg Arithmetic.context
  have hrequired := h.required_le hvalid hcash
  have hshares := sum_costShare_le hvalid
  have hvalues : 0 ≤ (command.risk.buys.map (notional command)).sum :=
    List.sum_nonneg fun x hx => by
      obtain ⟨a, -, rfl⟩ := List.mem_map.mp hx
      exact notional_nonneg hvalid a
  have hamounts : (purchaseAmounts command).sum ≤ (1 + Arithmetic.context.unit) *
      ((command.risk.buys.map (notional command)).sum +
        (command.risk.buys.map (costShare command command.risk.target)).sum) := by
    rw [← List.sum_map_add, ← List.sum_map_mul_left]
    exact List.sum_le_sum fun a _ => Arithmetic.context.round_le_mul
      (add_nonneg (notional_nonneg hvalid a) (costShare_nonneg hvalid a))
  have hup : 0 ≤ 1 + Arithmetic.context.unit := add_nonneg zero_le_one hunit
  have hsquare : 1 ≤ (1 + Arithmetic.context.unit) ^ 2 :=
    one_le_pow₀ (le_add_of_nonneg_right hunit)
  have hvalued : leastPart * (command.risk.buys.map (notional command)).sum ≤
      (1 + Arithmetic.context.unit) ^ 2 * (command.risk.buys.map (notional command)).sum :=
    mul_le_mul_of_nonneg_right (leastPart_le_one.trans hsquare) hvalues
  have hboth : leastPart * ((command.risk.buys.map (notional command)).sum +
      (command.risk.buys.map (costShare command command.risk.target)).sum) ≤
        (1 + Arithmetic.context.unit) ^ 2 * (command.risk.target.expectedCost +
          (command.risk.buys.map (notional command)).sum) := by
    linarith
  calc leastPart ^ 2 * (purchaseAmounts command).sum
      ≤ leastPart ^ 2 * ((1 + Arithmetic.context.unit) *
          ((command.risk.buys.map (notional command)).sum +
            (command.risk.buys.map (costShare command command.risk.target)).sum)) :=
        mul_le_mul_of_nonneg_left hamounts (pow_nonneg leastPart_nonneg 2)
    _ = (1 + Arithmetic.context.unit) * leastPart *
          (leastPart * ((command.risk.buys.map (notional command)).sum +
            (command.risk.buys.map (costShare command command.risk.target)).sum)) := by ring
    _ ≤ (1 + Arithmetic.context.unit) * leastPart * ((1 + Arithmetic.context.unit) ^ 2 *
          (command.risk.target.expectedCost +
            (command.risk.buys.map (notional command)).sum)) :=
        mul_le_mul_of_nonneg_left hboth (mul_nonneg hup leastPart_nonneg)
    _ = (1 + Arithmetic.context.unit) ^ 3 * (leastPart * (command.risk.target.expectedCost +
          (command.risk.buys.map (notional command)).sum)) := by ring
    _ ≤ (1 + Arithmetic.context.unit) ^ 3 * ((1 + Arithmetic.context.unit) *
          (cash.settledAmount - cash.reservedAmount)) :=
        mul_le_mul_of_nonneg_left hrequired (pow_nonneg hup 3)
    _ = _ := by ring

/-- What the purchases take, each rounded up, passes what is available by a quantum each, and by the
errors. -/
theorem Approves.reserved_le (h : Approves command.risk policy) (hvalid : command.risk.Valid)
    (hcash : command.risk.cash = some cash) (hquantum : 0 < cash.quantum) :
    leastPart ^ 2 * ((purchaseAmounts command).map (ceilToQuantum · cash.quantum)).sum ≤
      (1 + Arithmetic.context.unit) ^ 6 * (cash.settledAmount - cash.reservedAmount) +
        (1 + Arithmetic.context.unit) * (command.risk.buys.length * cash.quantum) := by
  have hup : 0 ≤ 1 + Arithmetic.context.unit :=
    add_nonneg zero_le_one (Context.unit_nonneg _)
  have hamounts := h.purchases_le hvalid hcash
  have hrounded := Arithmetic.context.sum_ceilTo_le hquantum (purchaseAmounts_nonneg hvalid)
  have hlength : (purchaseAmounts command).length = command.risk.buys.length := List.length_map _
  rw [hlength] at hrounded
  have hquanta : 0 ≤ (1 + Arithmetic.context.unit) * (command.risk.buys.length * cash.quantum) :=
    mul_nonneg hup (mul_nonneg (Nat.cast_nonneg _) hquantum.le)
  have hless : leastPart ^ 2 *
      ((1 + Arithmetic.context.unit) * (command.risk.buys.length * cash.quantum)) ≤
        (1 + Arithmetic.context.unit) * (command.risk.buys.length * cash.quantum) :=
    mul_le_of_le_one_left hquanta (pow_le_one₀ leastPart_nonneg leastPart_le_one)
  calc leastPart ^ 2 * ((purchaseAmounts command).map (ceilToQuantum · cash.quantum)).sum
      ≤ leastPart ^ 2 * ((1 + Arithmetic.context.unit) * ((1 + Arithmetic.context.unit) *
          (purchaseAmounts command).sum + command.risk.buys.length * cash.quantum)) :=
        mul_le_mul_of_nonneg_left hrounded (pow_nonneg leastPart_nonneg 2)
    _ = (1 + Arithmetic.context.unit) ^ 2 * (leastPart ^ 2 * (purchaseAmounts command).sum) +
          leastPart ^ 2 *
            ((1 + Arithmetic.context.unit) * (command.risk.buys.length * cash.quantum)) := by ring
    _ ≤ (1 + Arithmetic.context.unit) ^ 2 * ((1 + Arithmetic.context.unit) ^ 4 *
          (cash.settledAmount - cash.reservedAmount)) +
            (1 + Arithmetic.context.unit) * (command.risk.buys.length * cash.quantum) :=
        add_le_add (mul_le_mul_of_nonneg_left hamounts (pow_nonneg hup 2)) hless
    _ = _ := by ring

end

/-! ## The balance check of a batch -/

section

open scoped ExactArithmetic

variable {s s' : Store} {accountId : AccountId} {currency : Currency}

def Holds (accountId : AccountId) (currency : Currency) (row : PaperCashProjectionRow) : Prop :=
  row.accountId = accountId ∧ row.currency = currency

/-- A row that no other row of its account and currency stands beside, with what the reservations
take from it still settled. -/
structure Settles (rows : List PaperCashProjectionRow) (row : PaperCashProjectionRow)
    (taken : Decimal) : Prop where
  only : ∀ other ∈ rows, Holds row.accountId row.currency other → other = row
  mem : row ∈ rows
  within : row.reservedAmount + taken ≤ row.settledAmount

omit [Hashing] in
/-- An update that keeps the keys keeps a row the only one of its key. -/
theorem Settles.update {rows : List PaperCashProjectionRow} {row : PaperCashProjectionRow}
    {taken t : Decimal} {p : PaperCashProjectionRow → Prop} [DecidablePred p]
    {f : PaperCashProjectionRow → PaperCashProjectionRow} (h : Settles rows row taken)
    (hkey : ∀ r, (f r).accountId = r.accountId ∧ (f r).currency = r.currency)
    (hwithin : (if p row then f row else row).reservedAmount + t ≤
      (if p row then f row else row).settledAmount) :
    Settles (Table.update p f rows) (if p row then f row else row) t := by
  have hkeys : ∀ r, (if p r then f r else r).accountId = r.accountId ∧
      (if p r then f r else r).currency = r.currency := by
    intro r
    split
    · exact hkey r
    · exact ⟨rfl, rfl⟩
  constructor
  · intro other hother hsame
    obtain ⟨before, hbefore, rfl⟩ := Table.mem_update.mp hother
    have hrow : before = row := by
      refine h.only before hbefore ⟨?_, ?_⟩
      · exact (hkeys before).1.symm.trans (hsame.1.trans (hkeys row).1)
      · exact (hkeys before).2.symm.trans (hsame.2.trans (hkeys row).2)
    rw [hrow]
  · exact Table.mem_update.mpr ⟨row, h.mem, rfl⟩
  · exact hwithin

omit [Hashing] in
/-- Each reservation of a loop that succeeds was found to fit, so all of them together do. -/
theorem reserveProjection_fits {pairs : List ReservationOrderPair} {row : PaperCashProjectionRow}
    (h : pairs.foldlM (fun s pair => s.reserveProjection pair.1.reservation) s = .success s')
    (hcash : ∀ pair ∈ pairs, pair.1.reservation.kind = .cash →
      Holds pair.1.reservation.accountId pair.1.reservation.commodity row)
    (hrow : Settles s.cash row 0) : Settles s.cash row (cashAmount pairs) := by
  induction pairs generalizing s row with
  | nil => exact hrow
  | cons pair pairs ih =>
      rw [List.foldlM_cons] at h
      obtain ⟨s₁, hfirst, hrest⟩ := Attempt.bind_eq_success.mp h
      obtain ⟨havailable, rfl⟩ := reserveProjection_eq_success hfirst
      have hlater := fun p hp => hcash p (List.mem_cons_of_mem _ hp)
      cases hkind : pair.1.reservation.kind with
      | position =>
          have hamount : cashAmount (pair :: pairs) = cashAmount pairs := by
            simp [cashAmount, hkind]
          rw [hamount]
          unfold AccountReservation.holdCash at hrest
          rw [hkind] at hrest
          have htaken := ih hrest hlater hrow
          exact htaken
      | cash =>
          have hamount : cashAmount (pair :: pairs) =
              pair.1.reservation.amount + cashAmount pairs := by
            simp [cashAmount, hkind]
          have hholds := hcash pair (List.mem_cons_self ..) hkind
          unfold Available at havailable
          rw [hkind] at havailable
          obtain ⟨found, hfound, hreservable⟩ := havailable
          obtain rfl : found = row := by
            refine hrow.only found hfound ⟨?_, ?_⟩
            · exact hreservable.1.trans hholds.1.symm
            · exact hreservable.2.1.trans hholds.2.symm
          have hfits := hreservable.2.2.2.2
          have hheld := hrow.update (p := ReservableCash pair.1.reservation)
            (f := fun row =>
              { row with
                reservedAmount := row.reservedAmount + pair.1.reservation.amount
                updatedSequence := pair.1.reservation.accountAggregateSequence })
            (t := 0) (fun _ => ⟨rfl, rfl⟩) (by rw [if_pos hreservable]; simpa using hfits)
          rw [if_pos hreservable] at hheld
          unfold AccountReservation.holdCash at hrest
          rw [hkind] at hrest
          have htaken : Settles _
              { found with
                reservedAmount := found.reservedAmount + pair.1.reservation.amount
                updatedSequence := pair.1.reservation.accountAggregateSequence }
              (cashAmount pairs) := ih hrest hlater hheld
          have hwithin : found.reservedAmount + pair.1.reservation.amount + cashAmount pairs ≤
              found.settledAmount := htaken.within
          exact { hrow with within := by rw [hamount]; linarith }

/-- A balance of an account is a row that stands alone and holds what it reserves. -/
theorem getAccount_settles {account : PaperAccountState} {balance : CashBalance}
    (h : s.getAccount accountId = .success account) (hbalance : balance ∈ account.cash) :
    ∃ row, Settles s.cash row 0 ∧ row.accountId = accountId ∧ cashFromRow row = balance := by
  obtain ⟨accountRow, hfound, rfl, hcash, -, hvalid⟩ := getAccount_eq_success h
  have hid : accountRow.accountId = accountId := Table.key_of_get hfound
  obtain ⟨row, hrow, rfl⟩ := List.mem_map.mp hbalance
  obtain ⟨hmem, hof⟩ := List.mem_filter.mp (mem_sorted.mp hrow)
  have hof' : row.accountId = accountRow.accountId := of_decide_eq_true hof
  have hunique : ((sorted (·.currency) (s.cashOf accountRow.accountId)).map
      (·.currency)).Nodup := by
    simp only [PaperAccountState.validate, Attempt.bind_eq_success, requireSortedUnique,
      raiseUnless_eq_success] at hvalid
    obtain ⟨_, -, _, -, _, -, _, -, _, -, _, -, _, -, _, hcurrencies, -⟩ := hvalid
    have hnodup := hcurrencies.2
    unfold Store.accountState at hnodup
    rwa [List.map_map] at hnodup
  refine ⟨row, ⟨?_, hmem, ?_⟩, hof'.trans hid, rfl⟩
  · intro other hother hsame
    have hother' : other ∈ sorted (·.currency) (s.cashOf accountRow.accountId) :=
      mem_sorted.mpr (List.mem_filter.mpr ⟨hother, decide_eq_true (hsame.1.trans hof')⟩)
    exact List.inj_on_of_nodup_map hunique hother' hrow hsame.2
  · have hbounds := hcash _ hbalance
    simp only [CashBalance.validate, Attempt.bind_eq_success, raiseUnless_eq_success] at hbounds
    obtain ⟨_, -, _, -, _, -, _, -, _, hle, -⟩ := hbounds
    rw [add_zero]
    exact hle

omit [Hashing] in
theorem cashAmount_perm {pairs pairs' : List ReservationOrderPair} (h : pairs.Perm pairs') :
    cashAmount pairs = cashAmount pairs' :=
  ((h.filter _).map _).sum_eq

/-- A batch that is created takes no more of a balance than is available. -/
theorem createReservationOrders_fits {account : PaperAccountState} {balance : CashBalance}
    {pairs : List ReservationOrderPair} {now : UTCDateTime} {record : ReservationOrderBatchRecord}
    (haccount : s.getAccount accountId = .success account) (hbalance : balance ∈ account.cash)
    (hcash : ∀ pair ∈ pairs, pair.1.reservation.kind = .cash →
      pair.1.reservation.accountId = accountId ∧
        pair.1.reservation.commodity = balance.currency)
    (h : s.createReservationOrders pairs now = .success (record, s')) :
    s' = s ∨ cashAmount pairs ≤ balance.settledAmount - balance.reservedAmount := by
  rcases createReservationOrders_eq_success h with hsame | ⟨accountRow, event, hcreated⟩
  · exact .inl hsame
  · obtain ⟨row, hrow, hid, rfl⟩ := getAccount_settles haccount hbalance
    have hsequenced := hrow.update (p := fun r => r.accountId = accountRow.accountId)
      (f := fun r => { r with updatedSequence := accountRow.aggregateSequence + 1 })
      (t := 0) (fun _ => ⟨rfl, rfl⟩) (by split <;> exact hrow.within)
    have hkey : ∀ pair ∈ sorted (·.2.intentId) pairs, pair.1.reservation.kind = .cash →
        Holds pair.1.reservation.accountId pair.1.reservation.commodity row := by
      intro pair hpair hkind
      obtain ⟨hof, hcommodity⟩ := hcash pair (mem_sorted.mp hpair) hkind
      exact ⟨hid.trans hof.symm, hcommodity.symm⟩
    have htaken := reserveProjection_fits hcreated.reserved
      (fun pair hpair hkind => by
        have hholds := hkey pair hpair hkind
        split
        · exact hholds
        · exact hholds) hsequenced
    have hwithin : row.reservedAmount + cashAmount (sorted (·.2.intentId) pairs) ≤
        row.settledAmount := by
      have hle := htaken.within
      split at hle
      · exact hle
      · exact hle
    rw [cashAmount_perm (sorted_perm _ _)] at hwithin
    refine .inr ?_
    simp only [cashFromRow]
    linarith

end

/-! ## Authorised purchases -/

/-- What the cash that an approved batch reserves keeps to: one quantum for each purchase is the
most by which it passes the available cash, and on the account that the command was made for, a
batch that passes it is not created. -/
structure ReservesWithin (command : RiskAuthorizationCommand) (cash : CashBalance)
    (pairs : List ReservationOrderPair) : Prop where
  rounded : cashAmount pairs ≤
    cash.settledAmount - cash.reservedAmount + command.risk.buys.length * cash.quantum
  refused : ∀ (s : Store) (account : PaperAccountState) (now : UTCDateTime)
    (record : ReservationOrderBatchRecord) (s' : Store),
    s.getAccount command.risk.snapshot.accountId = .success account →
    AccountMatches account command →
    s.createReservationOrders pairs now = .success (record, s') →
    s' = s ∨ cashAmount pairs ≤ cash.settledAmount - cash.reservedAmount

section

open scoped PythonArithmetic

omit [Hashing] in
theorem leastPart_sq : 1 - 2 / 10 ^ 22 ≤ leastPart ^ 2 := by
  have hunit : Arithmetic.context.unit = (10 : ℚ) ^ (-27 : ℤ) := rfl
  have hpart : 1 - 1 / 10 ^ 22 ≤ leastPart := by
    have hpow := one_add_mul_le_pow (show (-2 : ℚ) ≤ -Arithmetic.context.unit by
      rw [hunit]
      norm_num) tupleLimit
    rw [← sub_eq_add_neg] at hpow
    refine le_trans ?_ hpow
    rw [hunit, tupleLimit]
    norm_num
  have hsquare := pow_le_pow_left₀ (by norm_num) hpart 2
  refine le_trans ?_ hsquare
  norm_num

omit [Hashing] in
/-- Up to so many quanta, all errors together stay below one of them. -/
theorem lt_add_of_errors {reserved available quantum : Decimal} {buys : ℕ} (hquantum : 0 < quantum)
    (hnonneg : 0 ≤ available) (havailable : available ≤ 10 ^ 21 * quantum) (hbuys : buys ≤
    tupleLimit)
    (h : leastPart ^ 2 * reserved ≤ (1 + Arithmetic.context.unit) ^ 6 * available +
      (1 + Arithmetic.context.unit) * (buys * quantum)) :
    reserved < available + buys * quantum + quantum := by
  by_contra hpasses
  have hunit : Arithmetic.context.unit = (10 : ℚ) ^ (-27 : ℤ) := rfl
  have hquanta : (buys : ℚ) * quantum ≤ 100000 * quantum := by
    have hcast : (buys : ℚ) ≤ 100000 := by exact_mod_cast hbuys
    exact mul_le_mul_of_nonneg_right hcast hquantum.le
  have hquantaNonneg : 0 ≤ (buys : ℚ) * quantum := mul_nonneg (Nat.cast_nonneg _) hquantum.le
  have hpart : (1 - 2 / 10 ^ 22) * (available + buys * quantum + quantum) ≤
      leastPart ^ 2 * reserved :=
    mul_le_mul leastPart_sq (not_lt.mp hpasses) (by linarith) (pow_nonneg leastPart_nonneg 2)
  rw [hunit] at h
  norm_num at h hpart havailable
  linarith

/-- An approved batch whose available cash is within a thousand trillion trillion quanta. -/
theorem authorised_reserves_within (command : RiskAuthorizationCommand) (policy : HardRiskPolicy)
    (decision : RiskDecision) (pairs : List ReservationOrderPair) (cash : CashBalance)
    (hvalid : command.validate = .success ())
    (h : evaluate command.risk policy = .success decision) (happroved : decision.approved = true)
    (hpairs : buildPairs command decision = .success pairs)
    (hcash : command.risk.cash = some cash)
    (hbound : cash.settledAmount - cash.reservedAmount ≤ 10 ^ 21 * cash.quantum) :
    ReservesWithin command cash pairs := by
  have hrisk : command.risk.Valid := by
    obtain ⟨_, hrisk, -⟩ := Attempt.bind_eq_success.mp hvalid
    exact command.risk.valid_of_validate hrisk
  obtain ⟨happroves, htarget⟩ := evaluate_approved h happroved
  have hmem : cash ∈ command.risk.snapshot.cash := Table.mem_of_get hcash
  have hcurrency : cash.currency = command.risk.target.costCurrency := Table.key_of_get hcash
  have hbuilt := buildPairs_eq_success hpairs htarget hcash
  have hamount : cashAmount pairs =
      ((purchaseAmounts command).map (ceilToQuantum · cash.quantum)).sum := by
    rw [cashAmount_eq (hbuilt.imp fun _ _ hpair => hpair.1), traded_buys, purchaseAmounts,
      List.map_map]
    refine congrArg List.sum (List.map_congr_left fun a ha => ?_)
    exact if_pos (of_decide_eq_true (List.mem_filter.mp ha).2)
  constructor
  · have hbalance := hrisk.cash cash hmem
    simp only [CashBalance.validate, Attempt.bind_eq_success, positiveDecimal_eq_success,
      raiseUnless_eq_success] at hbalance
    obtain ⟨_, -, _, -, _, -, _, hquantum, _, hle, hquantized⟩ := hbalance
    have hbuys : command.risk.buys.length ≤ tupleLimit :=
      (List.length_filter_le _ _).trans hrisk.allocations_length
    have hlt : cashAmount pairs < cash.settledAmount - cash.reservedAmount +
        command.risk.buys.length * cash.quantum + cash.quantum := by
      rw [hamount]
      exact lt_add_of_errors hquantum (sub_nonneg.mpr hle) hbound hbuys
        (happroves.reserved_le hrisk hcash hquantum)
    refine IsQuantized.le_of_lt_add ?_ ?_ hlt
    · exact cashAmount_quantized hquantum (hbuilt.imp fun _ _ hpair => hpair.1)
    · have hbuys : IsQuantized ((command.risk.buys.length : ℤ) * cash.quantum) cash.quantum :=
        .of_int hquantum _
      rw [Int.cast_natCast] at hbuys
      exact (hquantized.1.sub hquantized.2).add hbuys
  · intro s account now record s' haccount hmatches hcreated
    have hbalance : cash ∈ account.cash := by
      rw [hmatches.2.2.2.2.2.2.1]
      exact hmem
    refine createReservationOrders_fits haccount hbalance ?_ hcreated
    intro pair hpair hkind
    obtain ⟨a, -, hreserves, hof⟩ := hbuilt.exists_left hpair
    refine ⟨?_, ?_⟩
    · rw [hof, evaluate_accountId h]
      exact happroves.targetBound.2.1
    · rw [hcurrency]
      exact hreserves.commodity (hreserves.kind.mp hkind)

end

end

/-! ## Two purchases that are rounded up -/

section

open scoped PythonArithmetic CodeHashing

namespace Scenario

/-- The plan of a caller for one instrument. -/
def plan (instrumentId : UUID) : PlannedPaperOrder where
  instrumentId
  reservationId := 1000 + instrumentId
  intentId := 2000 + instrumentId
  runId := 7
  idempotencyKey := toString instrumentId
  orderType := .market
  timeInForce := .day
  limitPrice := none
  stopPrice := none
  executionModelVersion := "paper-v1"

/-- A policy whose exposure limits are all one. -/
def widePolicy : HardRiskPolicy :=
  { riskPolicy with
    maxSinglePositionWeight := 1
    maxSectorWeight := 1
    maxAssetClassWeight := 1
    maxGrossExposure := 1
    maxNetExposure := 1
    maxTurnover := 1 }

/-- Two purchases of 50.5 each, out of 101 on a quantum of one. -/
def halves : RiskAuthorizationCommand where
  risk := riskCommand 101 101 []
    [(bought 1 1 (1 / 2), 101 / 2), (bought 2 1 (1 / 2), 101 / 2)] 1 0
  orders := [plan 1, plan 2]

end Scenario

theorem halves_authorised : Scenario.halves.validate = .success () ∧
    Scenario.widePolicy.validate = .success () ∧
    (evaluate Scenario.halves.risk Scenario.widePolicy).SucceedsWith fun decision =>
      decision.approved = true ∧
        (buildPairs Scenario.halves decision).SucceedsWith fun pairs => cashAmount pairs = 102 := by
  decide +kernel

theorem not_authorised_fits : ¬ ∀ (command : RiskAuthorizationCommand) (policy : HardRiskPolicy)
    (decision : RiskDecision) (pairs : List ReservationOrderPair) (cash : CashBalance),
    command.validate = .success () → policy.validate = .success () →
    evaluate command.risk policy = .success decision → decision.approved = true →
    buildPairs command decision = .success pairs → command.risk.cash = some cash →
    cashAmount pairs ≤ cash.availableAmount := by
  intro hfits
  obtain ⟨hvalid, hpolicy, decision, hdecision, happroved, pairs, hpairs, hamount⟩ :=
    halves_authorised
  have hle := hfits Scenario.halves Scenario.widePolicy decision pairs ⟨"USD", 101, 0, 1⟩ hvalid
    hpolicy hdecision happroved hpairs rfl
  rw [hamount] at hle
  revert hle
  decide +kernel

theorem authorised_reserves_within_halves : ∃ pairs,
    ReservesWithin Scenario.halves ⟨"USD", 101, 0, 1⟩ pairs := by
  obtain ⟨hvalid, -, decision, hdecision, happroved, pairs, hpairs, -⟩ := halves_authorised
  exact ⟨pairs, authorised_reserves_within Scenario.halves Scenario.widePolicy decision pairs
    ⟨"USD", 101, 0, 1⟩ hvalid hdecision happroved hpairs rfl (by decide +kernel)⟩

end

end StonksPaper
