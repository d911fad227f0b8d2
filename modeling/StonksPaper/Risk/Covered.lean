import Mathlib.Data.List.Infix
import StonksPaper.Risk.Evaluate

/-!
# What an approval covers

An approved target is long only, sells what is available, buys what the available cash pays for,
and rests on reservations that reconcile and on signals that are eligible, as long as the figures
that the gate compares are not rounded to the digits of the context.
-/

namespace StonksPaper

open Chain

def BuildRiskDecisionCommand.costAt (command : BuildRiskDecisionCommand) (a : TargetAllocation) :
    Decimal := a.deltaQuantity * command.markPrice a.instrumentId

/-- The target can be carried out without a short sale and within what the account has free. -/
structure Covered [Hashing] (command : BuildRiskDecisionCommand) : Prop where
  long_only : ∀ a ∈ command.target.allocations, 0 ≤ a.targetQuantity
  sells : ∀ a ∈ command.target.allocations, a.deltaQuantity < 0 →
    ∃ p ∈ command.snapshot.positions, p.instrumentId = a.instrumentId ∧
      -a.deltaQuantity ≤ p.quantity - p.reservedQuantity
  marks : ∀ a ∈ command.target.allocations, ∃ i ∈ command.instruments,
    i.instrumentId = a.instrumentId ∧ i.markPrice = command.markPrice a.instrumentId
  buys : ∃ cash ∈ command.snapshot.cash, cash.currency = command.target.costCurrency ∧
    (command.buys.map command.costAt).sum + command.target.expectedCost ≤
      cash.settledAmount - cash.reservedAmount
  cash_reserved : ∀ currency, (cashRemaining command currency).sum = expectedCash command currency
  positions_reserved : ∀ instrumentId,
    (positionRemaining command instrumentId).sum = expectedPosition command instrumentId
  owners : ∀ orderId, orderId ∈ command.openReservations.map (·.orderIntentId) ↔
    orderId ∈ command.snapshot.pendingOrderIds
  signals : ∀ a ∈ command.target.allocations, 0 < a.deltaQuantity →
    ∃ c ∈ command.signalCandidates, c.signal.instrumentId = a.instrumentId ∧
      c.Eligible command.at_ ∧ c.signal.signalId ∈ command.target.inputSignalIds

/-- No difference of quantities, cost, running total or available amount that the gate compares is
rounded. -/
structure BuildRiskDecisionCommand.FiguresKept [Arithmetic] (command : BuildRiskDecisionCommand) :
    Prop where
  deltas : ∀ a ∈ command.target.allocations, IsKept (a.targetQuantity - a.currentQuantity)
  costs : ∀ a ∈ command.buys, IsKept (command.costAt a)
  totals : ∀ summed ∈ (command.buys.map command.costAt).inits, summed ≠ [] →
    IsKept (command.target.expectedCost + summed.sum)
  cash : ∀ balance ∈ command.snapshot.cash, IsKept (balance.settledAmount - balance.reservedAmount)
  positions : ∀ p ∈ command.snapshot.positions, IsKept (p.sellableQuantity - p.reservedQuantity)
  cashReserved : ∀ r ∈ command.openReservations,
    ∀ summed ∈ (cashRemaining command r.commodity).inits, IsKept summed.sum
  positionReserved : ∀ r ∈ command.openReservations, ∀ i ∈ r.instrumentId,
    ∀ summed ∈ (positionRemaining command i).inits, IsKept summed.sum

section

variable [Arithmetic] [Hashing] {command : BuildRiskDecisionCommand} {policy : HardRiskPolicy}

/-! ## Quantities -/

omit [Arithmetic] [Hashing] in
theorem PositionBalance.validate_bounds {p : PositionBalance} (h : p.validate = .success ()) :
    0 ≤ p.reservedQuantity ∧ p.reservedQuantity ≤ p.sellableQuantity ∧
      p.sellableQuantity ≤ p.quantity := by
  simp only [PositionBalance.validate, Attempt.bind_eq_success, nonNegativeDecimal_eq_success,
    positiveDecimal_eq_success, raiseUnless_eq_success] at h
  obtain ⟨_, -, _, -, _, hreserved, _, -, _, hsellable, _, hle, -⟩ := h
  exact ⟨hreserved, hle, hsellable⟩

omit [Hashing] in
theorem TargetAllocation.validate_delta {a : TargetAllocation} (h : a.validate = .success ()) :
    a.deltaQuantity = kept (a.targetQuantity - a.currentQuantity) := by
  simp only [TargetAllocation.validate, TargetAllocation.validateIn, Attempt.bind_eq_success,
    raiseUnless_eq_success] at h
  obtain ⟨_, -, _, -, _, hdelta, -⟩ := h
  exact hdelta

theorem BuildRiskDecisionCommand.Valid.delta_kept (hvalid : command.Valid) {a : TargetAllocation}
    (ha : a ∈ command.target.allocations) : IsKept a.deltaQuantity := by
  have hdelta := TargetAllocation.validate_delta (hvalid.allocations a ha)
  rw [IsKept, hdelta, kept_kept]

/-- The position that an allocation sells from, and what it has free. -/
theorem Approves.sells (h : Approves command policy) (hvalid : command.Valid)
    (hkept : command.FiguresKept) {a : TargetAllocation} (ha : a ∈ command.target.allocations)
    (hsell : a.deltaQuantity < 0) :
    ∃ p ∈ command.snapshot.positions, p.instrumentId = a.instrumentId ∧
      -a.deltaQuantity ≤ p.quantity - p.reservedQuantity := by
  have hshortfall := h.shortfall ha hsell
  have hdelta : kept a.deltaQuantity = a.deltaQuantity := hvalid.delta_kept ha
  unfold shortfallOf at hshortfall
  rw [abs_of_neg hsell, kept_neg, hdelta, ← not_lt, kept_pos_iff, not_lt] at hshortfall
  cases hposition : command.position a.instrumentId with
  | none =>
      rw [hposition] at hshortfall
      simp only [Option.elim_none] at hshortfall
      linarith
  | some p =>
      rw [hposition] at hshortfall
      have hmem : p ∈ command.snapshot.positions := Table.mem_of_get hposition
      obtain ⟨-, -, hsellable⟩ := PositionBalance.validate_bounds (hvalid.positions p hmem)
      refine ⟨p, hmem, Table.key_of_get hposition, ?_⟩
      have havailable : p.availableQuantity = p.sellableQuantity - p.reservedQuantity :=
        hkept.positions p hmem
      simp only [Option.elim_some, havailable] at hshortfall
      linarith

omit [Hashing] in
theorem BuildRiskDecisionCommand.Valid.allocation_eq [Hashing] (hvalid : command.Valid)
    {a : TargetAllocation} (ha : a ∈ command.target.allocations) :
    command.allocation a.instrumentId = some a := by
  have htarget := hvalid.target
  simp only [PortfolioTarget.validate, Attempt.bind_eq_success, requireSortedUnique,
    raiseUnless_eq_success] at htarget
  obtain ⟨_, -, _, -, _, -, _, -, _, -, _, -, _, -, _, -, _, hunique, -⟩ := htarget
  exact Table.get_of_mem hunique.2 ha

omit [Hashing] in
theorem BuildRiskDecisionCommand.Valid.position_eq [Hashing] (hvalid : command.Valid)
    {p : PositionBalance} (hp : p ∈ command.snapshot.positions) :
    command.position p.instrumentId = some p := by
  have hsnapshot := hvalid.snapshot
  simp only [AccountPortfolioSnapshot.validate, Attempt.bind_eq_success, requireSortedUnique,
    raiseUnless_eq_success] at hsnapshot
  obtain ⟨_, -, _, -, _, -, _, -, _, -, _, -, _, hunique, -⟩ := hsnapshot
  exact Table.get_of_mem hunique.2 hp

/-- An allocation starts from the quantity that the account holds. -/
theorem Approves.current (h : Approves command policy) (hvalid : command.Valid)
    {a : TargetAllocation} (ha : a ∈ command.target.allocations) :
    a.currentQuantity = (command.position a.instrumentId).elim 0 (·.quantity) := by
  have hmatches := h.targetBound.2.2.2.2.2.2.2
  cases hposition : command.position a.instrumentId with
  | none =>
      rcases hmatches.2 a ha with hheld | hzero
      · exact absurd hposition hheld
      · exact hzero
  | some p =>
      have hmem : p ∈ command.snapshot.positions := Table.mem_of_get hposition
      have hkey : p.instrumentId = a.instrumentId := Table.key_of_get hposition
      have hquantity := hmatches.1 p hmem
      rw [hkey, hvalid.allocation_eq ha] at hquantity
      exact Option.some.inj hquantity

theorem Approves.target_nonneg (h : Approves command policy) (hvalid : command.Valid)
    (hkept : command.FiguresKept) {a : TargetAllocation} (ha : a ∈ command.target.allocations) :
    0 ≤ a.targetQuantity := by
  have hdelta : a.deltaQuantity = a.targetQuantity - a.currentQuantity :=
    (TargetAllocation.validate_delta (hvalid.allocations a ha)).trans (hkept.deltas a ha)
  have hcurrent := h.current hvalid ha
  by_cases hsell : a.deltaQuantity < 0
  · obtain ⟨p, hp, hkey, hfree⟩ := h.sells hvalid hkept ha hsell
    have hbounds := PositionBalance.validate_bounds (hvalid.positions p hp)
    rw [← hkey, hvalid.position_eq hp] at hcurrent
    simp only [Option.elim_some] at hcurrent
    linarith [hbounds.1]
  · have hnonneg : 0 ≤ a.currentQuantity := by
      rw [hcurrent]
      cases hposition : command.position a.instrumentId with
      | none => exact le_rfl
      | some p =>
          have hbounds :=
            PositionBalance.validate_bounds (hvalid.positions p (Table.mem_of_get hposition))
          simp only [Option.elim_some]
          linarith [hbounds.1]
    linarith [not_lt.mp hsell]

/-! ## Reservations -/

omit [Hashing] in
/-- A currency that neither side names has nothing reserved on either. -/
theorem cashReserved_eq (h : ReservationsReconciled command) (hkept : command.FiguresKept)
    (currency : String) : (cashRemaining command currency).sum = expectedCash command currency := by
  by_cases hkey : currency ∈ command.openReservations.map (·.commodity)
  · have hreserved := h.2.1 currency (List.mem_append_left _ hkey)
    obtain ⟨r, hr, rfl⟩ := List.mem_map.mp hkey
    rw [← hreserved, cashReserved, Context.sum_eq_of_prefixes fun summed hsummed =>
      hkept.cashReserved r hr summed ((List.mem_inits _ _).mpr hsummed)]
  · have hnone : cashRemaining command currency = [] := by
      unfold cashRemaining
      rw [List.map_eq_nil_iff]
      refine List.filter_eq_nil_iff.mpr fun r hr hof => hkey ?_
      exact List.mem_map.mpr ⟨r, hr, (of_decide_eq_true hof).2⟩
    rw [hnone, List.sum_nil]
    by_cases hbalance : currency ∈ command.snapshot.cash.map (·.currency)
    · have hreserved := h.2.1 currency (List.mem_append_right _ hbalance)
      rw [← hreserved, cashReserved, hnone]
      rfl
    · have hexpected : Table.get (·.currency) command.snapshot.cash currency = none :=
        Table.get_eq_none.mpr fun b hb hof => hbalance (List.mem_map.mpr ⟨b, hb, hof⟩)
      rw [expectedCash, hexpected]
      rfl

omit [Hashing] in
theorem positionReserved_eq (h : ReservationsReconciled command) (hkept : command.FiguresKept)
    (instrumentId : UUID) :
    (positionRemaining command instrumentId).sum = expectedPosition command instrumentId := by
  by_cases hkey : instrumentId ∈ command.openReservations.filterMap (·.instrumentId)
  · have hreserved := h.2.2.1 instrumentId (List.mem_append_left _ hkey)
    obtain ⟨r, hr, hinstrument⟩ := List.mem_filterMap.mp hkey
    rw [← hreserved, positionReserved, Context.sum_eq_of_prefixes fun summed hsummed =>
      hkept.positionReserved r hr _ hinstrument summed ((List.mem_inits _ _).mpr hsummed)]
  · have hnone : positionRemaining command instrumentId = [] := by
      unfold positionRemaining
      rw [List.map_eq_nil_iff]
      refine List.filter_eq_nil_iff.mpr fun r hr hof => hkey ?_
      exact List.mem_filterMap.mpr ⟨r, hr, (of_decide_eq_true hof).2⟩
    rw [hnone, List.sum_nil]
    by_cases hposition : instrumentId ∈ command.snapshot.positions.map (·.instrumentId)
    · have hreserved := h.2.2.1 instrumentId (List.mem_append_right _ hposition)
      rw [← hreserved, positionReserved, hnone]
      rfl
    · have hexpected : command.position instrumentId = none :=
        Table.get_eq_none.mpr fun p hp hof => hposition (List.mem_map.mpr ⟨p, hp, hof⟩)
      rw [expectedPosition, hexpected]
      rfl

/-! ## Cash -/

omit [Hashing] in
/-- Costs whose running totals are not rounded add up exactly. -/
theorem foldl_costs {costs : List Decimal} {start : Decimal}
    (h : ∀ summed ∈ costs.inits, summed ≠ [] → IsKept (start + summed.sum)) :
    costs.foldl (fun required cost => kept (required + cost)) start = start + costs.sum := by
  induction costs generalizing start with
  | nil => simp
  | cons cost costs ih =>
      have hhead : kept (start + cost) = start + cost := by
        have hkept := h [cost] ((List.mem_inits _ _).mpr (List.prefix_append [cost] costs))
          (List.cons_ne_nil _ _)
        rwa [List.sum_singleton] at hkept
      rw [List.foldl_cons, hhead, List.sum_cons, ← add_assoc]
      refine ih fun summed hsummed _ => ?_
      have hkept := h (cost :: summed)
        ((List.mem_inits _ _).mpr
          (List.cons_prefix_cons.mpr ⟨rfl, (List.mem_inits _ _).mp hsummed⟩))
        (List.cons_ne_nil _ _)
      rwa [List.sum_cons, ← add_assoc] at hkept

omit [Hashing] in
theorem BuildRiskDecisionCommand.FiguresKept.requiredCash_eq (hkept : command.FiguresKept) :
    requiredCash command =
      command.target.expectedCost + (command.buys.map command.costAt).sum := by
  have hcosts : (command.buys.map fun a =>
      kept (a.deltaQuantity * command.markPrice a.instrumentId)) =
        command.buys.map command.costAt :=
    List.map_congr_left fun a ha => hkept.costs a ha
  rw [requiredCash, hcosts]
  exact foldl_costs hkept.totals

/-! ## Approvals -/

theorem Approves.covered (h : Approves command policy) (hvalid : command.Valid)
    (hkept : command.FiguresKept) : Covered command := by
  have hreservations := h.reservations
  have hsignals := h.signals
  constructor
  · exact fun a ha => h.target_nonneg hvalid hkept ha
  · exact fun a ha hsell => h.sells hvalid hkept ha hsell
  · intro a ha
    obtain ⟨i, hi, hkey, hfound, -⟩ := h.instrument_of_allocation ha
    refine ⟨i, hi, hkey, ?_⟩
    unfold BuildRiskDecisionCommand.markPrice
    rw [hfound]
    rfl
  · obtain ⟨cash, hcash, hrequired⟩ := h.cash
    have hmem : cash ∈ command.snapshot.cash := Table.mem_of_get hcash
    have havailable : cash.availableAmount = cash.settledAmount - cash.reservedAmount :=
      hkept.cash cash hmem
    refine ⟨cash, hmem, Table.key_of_get hcash, ?_⟩
    rwa [hkept.requiredCash_eq, havailable, add_comm] at hrequired
  · exact cashReserved_eq hreservations hkept
  · exact positionReserved_eq hreservations hkept
  · intro orderId
    constructor
    · intro hmem
      obtain ⟨r, hr, rfl⟩ := List.mem_map.mp hmem
      exact hreservations.2.2.2.1 r hr
    · exact hreservations.2.2.2.2 orderId
  · intro a ha hbuy
    obtain ⟨c, hc, hinstrument⟩ := List.mem_map.mp (hsignals.2.2.2.2 a ha hbuy)
    exact ⟨c, hc, hinstrument, (hsignals.2.2.2.1 c hc).1, hsignals.2.2.1.1 c hc⟩

end

/-! ## An approved purchase -/

section

open scoped PythonArithmetic CodeHashing

namespace Scenario

def purchase : BuildRiskDecisionCommand :=
  riskCommand 1000 1000 [] [(bought 1 10 (1 / 10), 10)] (1 / 10) 1

def thirds : BuildRiskDecisionCommand :=
  riskCommand 1 1 [] [(bought 1 3 (1 / 10), 33333333333333333333333333334 / 10 ^ 29)] (1 / 10) 0

end Scenario

theorem purchase_approved : Scenario.purchase.validate = .success () ∧
    (evaluate Scenario.purchase Scenario.riskPolicy).SucceedsWith fun decision =>
      decision.approved = true := by
  decide +kernel

end

end StonksPaper
