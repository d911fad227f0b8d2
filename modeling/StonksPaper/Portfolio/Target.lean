import StonksPaper.Portfolio.Built
import StonksPaper.Risk.Evaluate

/-!
# The documented target

In exact arithmetic a target is a function of what the account holds, of the marks and of the
signals. Each instrument is sized on its own: its weight moves from the current one towards the
desired one, stays within the bound, and is met from below as closely as the quantum admits.
-/

namespace StonksPaper

open Chain Quantum

/-! ## What a target is for -/

def PortfolioPolicy.weightFor (self : PortfolioPolicy) (strategy : String × String) : Decimal :=
  ((self.strategyWeights.filter (·.key = strategy)).map (·.weight)).sum

/-- The current weight, moved towards the desired one and clamped to what a position may have. -/
def PortfolioPolicy.aimedWeight (self : PortfolioPolicy) (score current : Decimal) : Decimal :=
  let desired := if |score| ≤ self.deadband then 0 else score * self.shrinkage
  max 0 (min self.maxPositionWeight
    (current + (desired - current) * (1 - self.turnoverPenalty)))

namespace BuildTargetCommand

variable (self : BuildTargetCommand)

def Held (instrumentId : UUID) : Prop :=
  ∃ position ∈ self.snapshot.positions, position.instrumentId = instrumentId

def Signalled (instrumentId : UUID) : Prop :=
  ∃ candidate ∈ self.signalCandidates, candidate.signal.instrumentId = instrumentId

def heldQuantity (instrumentId : UUID) : Decimal :=
  ((self.snapshot.positions.filter (·.instrumentId = instrumentId)).map (·.quantity)).sum

def markedPrice (instrumentId : UUID) : Decimal :=
  ((self.marks.filter (·.instrumentId = instrumentId)).map (·.price)).sum

def marketValue : Decimal :=
  (self.snapshot.cash.map (·.settledAmount)).sum +
    (self.snapshot.positions.map fun p => p.quantity * self.markedPrice p.instrumentId).sum

def tradedValue (allocations : List TargetAllocation) : Decimal :=
  (allocations.map fun a => |a.deltaQuantity| * self.markedPrice a.instrumentId).sum

/-- The weighted sum of the signals of an instrument, to twelve places. -/
def scoreOf (policy : PortfolioPolicy) (instrumentId : UUID) : Decimal :=
  halfEvenTo ((self.signalCandidates.filter (·.signal.instrumentId = instrumentId)).map fun c =>
    policy.weightFor (c.signal.strategyId, c.signal.strategyVersion) * c.signal.value *
      c.signal.confidence).sum (1 / 10 ^ 12)

/-- The command with its marks, signals and positions in another order. -/
def reordered (marks : List PortfolioMark) (signalCandidates : List PortfolioSignalCandidate)
    (positions : List PositionBalance) : BuildTargetCommand :=
  { self with
    marks, signalCandidates
    snapshot := { self.snapshot with positions } }

end BuildTargetCommand

/-- The allocation is the one that is documented for its mark. -/
structure TargetAllocation.Sized (a : TargetAllocation) (command : BuildTargetCommand)
    (policy : PortfolioPolicy) (mark : PortfolioMark) (aimed : Decimal) : Prop where
  instrument : mark ∈ command.marks ∧ mark.instrumentId = a.instrumentId
  quantum : a.quantityQuantum = mark.quantityQuantum
  current : a.currentQuantity = command.heldQuantity a.instrumentId
  delta : a.deltaQuantity = a.targetQuantity - a.currentQuantity
  aim : aimed = policy.aimedWeight (command.scoreOf policy a.instrumentId)
    (a.currentQuantity * mark.price / command.marketValue)
  greatest : IsGreatest {quantity : Decimal | IsQuantized quantity mark.quantityQuantum ∧
    quantity * mark.price / command.marketValue ≤ aimed} a.targetQuantity
  nonneg : 0 ≤ a.targetQuantity * mark.price / command.marketValue
  bounded : a.targetQuantity * mark.price / command.marketValue ≤ policy.maxPositionWeight
  close : aimed - a.targetQuantity * mark.price / command.marketValue <
    mark.quantityQuantum * mark.price / command.marketValue
  weight : a.targetWeight =
    halfEvenTo (a.targetQuantity * mark.price / command.marketValue) (1 / 10 ^ 12)

/-- The target is the one that is documented for the command. -/
structure PortfolioTarget.Documented (self : PortfolioTarget) (command : BuildTargetCommand)
    (policy : PortfolioPolicy) : Prop where
  sorted : SortedUnique (self.allocations.map (·.instrumentId))
  covers : ∀ instrumentId, instrumentId ∈ self.allocations.map (·.instrumentId) ↔
    command.Held instrumentId ∨ command.Signalled instrumentId
  sized : ∀ a ∈ self.allocations, ∃ mark aimed, a.Sized command policy mark aimed
  turnover : self.expectedTurnover =
    halfEvenTo (command.tradedValue self.allocations / command.marketValue) (1 / 10 ^ 12)
  cost : self.expectedCost =
    halfEvenTo (command.tradedValue self.allocations * policy.estimatedCostBps / 10000)
      policy.currencyQuantum

namespace Portfolio

variable {command : BuildTargetCommand} {policy : PortfolioPolicy}

/-! ## What the dictionaries hold -/

theorem weightOf_eq (hunique : Table.Unique PortfolioStrategyWeight.key policy.strategyWeights)
    (signal : AlphaSignal) :
    weightOf policy signal = policy.weightFor (signal.strategyId, signal.strategyVersion) := by
  rw [weightOf, PortfolioPolicy.weightFor, Table.sum_filter_key hunique,
    Table.get_of_perm hunique (List.reverse_perm _)]
  cases Table.get PortfolioStrategyWeight.key policy.strategyWeights
    (signal.strategyId, signal.strategyVersion) <;> rfl

theorem price_eq (hunique : Table.Unique PortfolioMark.instrumentId command.marks)
    (instrumentId : UUID) : command.price instrumentId = command.markedPrice instrumentId := by
  rw [BuildTargetCommand.price, BuildTargetCommand.markedPrice, Table.sum_filter_key hunique,
    BuildTargetCommand.mark]
  cases Table.get PortfolioMark.instrumentId command.marks instrumentId <;> rfl

theorem heldQuantity_eq
    (hunique : Table.Unique PositionBalance.instrumentId command.snapshot.positions)
    (instrumentId : UUID) :
    (command.position instrumentId).elim 0 (·.quantity) = command.heldQuantity instrumentId := by
  rw [BuildTargetCommand.heldQuantity, Table.sum_filter_key hunique, BuildTargetCommand.position]
  cases Table.get PositionBalance.instrumentId command.snapshot.positions instrumentId <;> rfl

theorem netAssetValue_eq [Hashing] (h : Accepts .exact command policy) :
    command.netAssetValue .exact = command.marketValue := by
  have hcash : command.settledCash = (command.snapshot.cash.map (·.settledAmount)).sum := by
    obtain ⟨cash, hone, hcurrency⟩ := List.map_eq_singleton_iff.mp h.cash
    rw [BuildTargetCommand.settledCash, hone]
    simp [Table.get, hcurrency]
  rw [BuildTargetCommand.netAssetValue, BuildTargetCommand.marketValue, Context.round_exact,
    Context.sum_exact, hcash]
  simp only [Context.round_exact, price_eq h.marks_unique]

theorem scoreOf_eq {score : Decimal} {instrumentId : UUID} (hpolicy : policy.Valid)
    (h : quantize .exact (Context.exact.sum ((command.candidatesOf instrumentId).map fun c =>
      contribution .exact policy c.signal)) = .success score) :
    score = command.scoreOf policy instrumentId := by
  have hperm := ((sorted_perm (·.signal.signalId) command.signalCandidates).filter
    (·.signal.instrumentId = instrumentId)).map fun c => contribution .exact policy c.signal
  have hscore := (quantize_eq_success.mp h).2
  rw [Context.sum_exact, BuildTargetCommand.candidatesOf, BuildTargetCommand.candidates,
    hperm.sum_eq] at hscore
  rw [← hscore, BuildTargetCommand.scoreOf]
  simp only [contribution, Context.round_exact, weightOf_eq hpolicy.weights_unique,
    calculationQuantum]
  norm_num

theorem boundedWeight_eq (hpolicy : policy.Valid) (score current : Decimal) :
    boundedWeight policy (penalizedWeight .exact policy score current) =
      policy.aimedWeight score current := by
  change _ = max 0 (min policy.maxPositionWeight (penalizedWeight .exact policy score current))
  rw [max_min_distrib_left, max_eq_right hpolicy.bound_pos.le, boundedWeight]

/-! ## One allocation -/

theorem isGreatest_targetQuantity (aimed : Decimal) {nav : Decimal} {mark : PortfolioMark}
    (hnav : 0 < nav) (hprice : 0 < mark.price) (hquantum : 0 < mark.quantityQuantum) :
    IsGreatest {quantity : Decimal | IsQuantized quantity mark.quantityQuantum ∧
      quantity * mark.price / nav ≤ aimed} (targetQuantity .exact aimed nav mark) := by
  have hweight (quantity : Decimal) :
      quantity * mark.price / nav ≤ aimed ↔ quantity ≤ aimed * nav / mark.price := by
    rw [div_le_iff₀ hnav, le_div_iff₀ hprice]
  simp only [hweight]
  exact isGreatest_floorTo hquantum

theorem aimed_sub_targetQuantity (aimed : Decimal) {nav : Decimal} {mark : PortfolioMark}
    (hnav : 0 < nav) (hprice : 0 < mark.price) (hquantum : 0 < mark.quantityQuantum) :
    aimed - targetQuantity .exact aimed nav mark * mark.price / nav <
      mark.quantityQuantum * mark.price / nav := by
  have hlt : aimed * nav / mark.price - mark.quantityQuantum <
      targetQuantity .exact aimed nav mark :=
    sub_lt_floorTo hquantum
  rw [sub_lt_iff_lt_add, div_lt_iff₀ hprice] at hlt
  rw [sub_lt_iff_lt_add, ← add_div, lt_div_iff₀ hnav]
  linarith

theorem sized_of_allocated {nav : Decimal} {mark : PortfolioMark} {a : TargetAllocation}
    (hcommand : command.Valid) (hpolicy : policy.Valid) (hnav : nav = command.marketValue)
    (hpos : 0 < nav) (hmark : command.mark a.instrumentId = some mark)
    (h : Allocated .exact policy nav (command.position a.instrumentId) mark
      (command.candidatesOf a.instrumentId) a) :
    a.Sized command policy mark (policy.aimedWeight (command.scoreOf policy a.instrumentId)
      (a.currentQuantity * mark.price / command.marketValue)) := by
  subst hnav
  have hmem := Table.mem_of_get hmark
  have hprice := hcommand.price_pos mark hmem
  have hquantum := hcommand.quantum_pos mark hmem
  obtain ⟨score, hscore, htarget⟩ := h.target
  rw [scoreOf_eq hpolicy hscore, boundedWeight_eq hpolicy] at htarget
  have haimed (x y : Decimal) : 0 ≤ policy.aimedWeight x y ∧
      policy.aimedWeight x y ≤ policy.maxPositionWeight :=
    ⟨le_max_left .., max_le hpolicy.bound_pos.le (min_le_left ..)⟩
  have hgreatest := isGreatest_targetQuantity (policy.aimedWeight
    (command.scoreOf policy a.instrumentId)
    (weightAt .exact a.currentQuantity command.marketValue mark)) hpos hprice hquantum
  have hclose := aimed_sub_targetQuantity (policy.aimedWeight
    (command.scoreOf policy a.instrumentId)
    (weightAt .exact a.currentQuantity command.marketValue mark)) hpos hprice hquantum
  rw [← htarget] at hgreatest hclose
  have hzero : (0 : Decimal) ≤ a.targetQuantity := by
    refine hgreatest.2 ⟨.zero hquantum, ?_⟩
    rw [zero_mul, zero_div]
    exact (haimed ..).1
  have hweight := (quantize_eq_success.mp h.weight).2
  exact
    { instrument := ⟨hmem, Table.key_of_get hmark⟩
      quantum := h.quantum
      current := h.current.trans (heldQuantity_eq hcommand.positions_unique _)
      delta := h.delta
      aim := rfl
      greatest := hgreatest
      nonneg := div_nonneg (mul_nonneg hzero hprice.le) hpos.le
      bounded := hgreatest.1.2.trans (haimed ..).2
      close := hclose
      weight := by
        rw [← hweight, calculationQuantum, weightAt]
        norm_num }

/-! ## The whole target -/

theorem instrumentIds_sorted (command : BuildTargetCommand) :
    SortedUnique command.instrumentIds := by
  have hnodup := List.nodup_dedup (command.snapshot.positions.map (·.instrumentId) ++
    command.candidates.map (·.signal.instrumentId))
  rw [← List.map_id (List.dedup _)] at hnodup
  have hsorted := sortedUnique_map_sorted.mpr hnodup
  rwa [List.map_id] at hsorted

theorem traded_eq (hunique : Table.Unique PortfolioMark.instrumentId command.marks)
    (allocations : List TargetAllocation) :
    Context.exact.sum (allocations.map fun a =>
      notional .exact a.deltaQuantity (command.price a.instrumentId)) =
        command.tradedValue allocations := by
  rw [Context.sum_exact, BuildTargetCommand.tradedValue]
  simp only [notional, Context.round_exact, price_eq hunique]

theorem documented_of_built [Hashing] {target : PortfolioTarget} (hcommand : command.Valid)
    (hpolicy : policy.Valid) (h : buildTarget .exact command policy = .success target) :
    target.Documented command policy := by
  obtain ⟨haccepts, allocations, turnover, cost, hallocations, hcosts, hcreate⟩ :=
    buildTarget_eq_success.mp h
  obtain ⟨-, rfl⟩ := create_eq_success.mp hcreate
  have hnav := netAssetValue_eq haccepts
  have hids := instrumentIds_of_mapM hallocations
  simp only [targetCosts, Attempt.bind_eq_success, Attempt.pure_eq, Attempt.success.injEq,
    quantize_eq_success, traded_eq haccepts.marks_unique, hnav] at hcosts
  obtain ⟨_, ⟨-, rfl⟩, cost', hcost, hpair⟩ := hcosts
  obtain ⟨rfl, rfl⟩ := Prod.mk.inj hpair
  constructor
  case sorted =>
    change SortedUnique (allocations.map (·.instrumentId))
    rw [hids]
    exact instrumentIds_sorted command
  case covers =>
    intro instrumentId
    change instrumentId ∈ allocations.map (·.instrumentId) ↔ _
    rw [hids, mem_instrumentIds, List.mem_map, List.mem_map]
    rfl
  case sized =>
    intro a ha
    obtain ⟨instrumentId, -, mark, hmark, hallocated⟩ :=
      (allocations_of_mapM hallocations).exists_left ha
    obtain rfl : a.instrumentId = instrumentId :=
      hallocated.instrument.trans (Table.key_of_get hmark)
    exact ⟨mark, _, sized_of_allocated hcommand hpolicy hnav haccepts.nav_pos hmark hallocated⟩
  case turnover =>
    change halfEvenTo _ calculationQuantum = _
    rw [calculationQuantum]
    norm_num [targetValues]
  case cost => exact costOf_exact hcost

/-! ## The order of the inputs -/

variable {marks : List PortfolioMark} {signalCandidates : List PortfolioSignalCandidate}
  {positions : List PositionBalance}

theorem candidates_reordered (hcandidates : signalCandidates.Perm command.signalCandidates)
    (hunique : (command.signalCandidates.map (·.signal.signalId)).Nodup) :
    (command.reordered marks signalCandidates positions).candidates = command.candidates :=
  sorted_eq_of_perm hcandidates hunique

theorem instrumentIds_reordered (hcandidates : signalCandidates.Perm command.signalCandidates)
    (hpositions : positions.Perm command.snapshot.positions) :
    (command.reordered marks signalCandidates positions).instrumentIds = command.instrumentIds := by
  refine (instrumentIds_sorted _).eq_of_mem_iff (instrumentIds_sorted _) fun instrumentId => ?_
  rw [mem_instrumentIds, mem_instrumentIds]
  exact or_congr (hpositions.map _).mem_iff (hcandidates.map _).mem_iff

theorem mark_reordered (hmarks : marks.Perm command.marks)
    (hunique : Table.Unique PortfolioMark.instrumentId command.marks) (instrumentId : UUID) :
    (command.reordered marks signalCandidates positions).mark instrumentId =
      command.mark instrumentId := Table.get_of_perm hunique hmarks

theorem netAssetValue_reordered (hmarks : marks.Perm command.marks)
    (hpositions : positions.Perm command.snapshot.positions)
    (hunique : Table.Unique PortfolioMark.instrumentId command.marks) :
    (command.reordered marks signalCandidates positions).netAssetValue .exact =
      command.netAssetValue .exact := by
  have hprice (instrumentId : UUID) :
      (command.reordered marks signalCandidates positions).price instrumentId =
        command.price instrumentId := by
    rw [BuildTargetCommand.price, BuildTargetCommand.price, mark_reordered hmarks hunique]
  have hsum := (hpositions.map fun p => p.quantity * command.price p.instrumentId).sum_eq
  simp only [BuildTargetCommand.netAssetValue, hprice, Context.round_exact, Context.sum_exact]
  exact congrArg (command.settledCash + ·) hsum

theorem accepts_reordered [Hashing] (hmarks : marks.Perm command.marks)
    (hcandidates : signalCandidates.Perm command.signalCandidates)
    (hpositions : positions.Perm command.snapshot.positions)
    (h : Accepts .exact command policy) :
    Accepts .exact (command.reordered marks signalCandidates positions) policy where
  cash := h.cash
  cash_quantum := h.cash_quantum
  currency := fun mark hmark => h.currency mark (hmarks.mem_iff.mp hmark)
  marks_unique := (hmarks.map _).nodup_iff.mpr h.marks_unique
  marks_past := fun mark hmark => h.marks_past mark (hmarks.mem_iff.mp hmark)
  signals_unique := (hcandidates.map _).nodup_iff.mpr h.signals_unique
  keys_unique := (hcandidates.map _).nodup_iff.mpr h.keys_unique
  usable := fun candidate hcandidate => h.usable candidate (hcandidates.mem_iff.mp hcandidate)
  quantum := fun position hposition => by
    rw [mark_reordered hmarks h.marks_unique]
    exact h.quantum position (hpositions.mem_iff.mp hposition)
  some_instrument := by
    rw [instrumentIds_reordered hcandidates hpositions]
    exact h.some_instrument
  marked := fun instrumentId => by
    rw [instrumentIds_reordered hcandidates hpositions, mark_reordered hmarks h.marks_unique]
    exact h.marked instrumentId
  nav_pos := by
    rw [netAssetValue_reordered hmarks hpositions h.marks_unique]
    exact h.nav_pos

/-- Nothing that a target is built from depends on the order of the inputs. -/
theorem built_reordered [Hashing] {target : PortfolioTarget} (hcommand : command.Valid)
    (hmarks : marks.Perm command.marks)
    (hcandidates : signalCandidates.Perm command.signalCandidates)
    (hpositions : positions.Perm command.snapshot.positions)
    (h : buildTarget .exact command policy = .success target) :
    buildTarget .exact (command.reordered marks signalCandidates positions) policy =
      .success target := by
  obtain ⟨haccepts, allocations, turnover, cost, hallocations, hcosts, hcreate⟩ :=
    buildTarget_eq_success.mp h
  have hmark (instrumentId : UUID) :
      (command.reordered marks signalCandidates positions).mark instrumentId =
        command.mark instrumentId :=
    mark_reordered hmarks haccepts.marks_unique instrumentId
  have hposition (instrumentId : UUID) :
      (command.reordered marks signalCandidates positions).position instrumentId =
        command.position instrumentId :=
    Table.get_of_perm hcommand.positions_unique hpositions
  have hcandidates' :
      (command.reordered marks signalCandidates positions).candidates = command.candidates :=
    candidates_reordered hcandidates haccepts.signals_unique
  refine buildTarget_eq_success.mpr ⟨accepts_reordered hmarks hcandidates hpositions haccepts,
    allocations, turnover, cost, ?_, ?_, ?_⟩
  · have hallocation (instrumentId : UUID) :
        allocationOf .exact (command.reordered marks signalCandidates positions) policy
          (command.netAssetValue .exact) instrumentId =
            allocationOf .exact command policy (command.netAssetValue .exact) instrumentId := by
      rw [allocationOf, allocationOf, hmark, hposition, BuildTargetCommand.candidatesOf,
        BuildTargetCommand.candidatesOf, hcandidates']
    rw [instrumentIds_reordered hcandidates hpositions,
      netAssetValue_reordered hmarks hpositions haccepts.marks_unique, funext hallocation]
    exact hallocations
  · rw [netAssetValue_reordered hmarks hpositions haccepts.marks_unique]
    simp only [targetCosts, BuildTargetCommand.price, hmark] at hcosts ⊢
    exact hcosts
  · rw [targetValues, hcandidates']
    exact hcreate

/-- A target that is built is the documented one, whatever the order of the inputs. -/
theorem buildTarget_documented [Hashing] {command : BuildTargetCommand} {policy : PortfolioPolicy}
    {target : PortfolioTarget} (hcommand : command.validate = .success ())
    (hpolicy : policy.validate .exact = .success ())
    (h : buildTarget .exact command policy = .success target) :
    target.Documented command policy ∧
      ∀ marks signalCandidates positions, marks.Perm command.marks →
        signalCandidates.Perm command.signalCandidates →
        positions.Perm command.snapshot.positions →
        buildTarget .exact (command.reordered marks signalCandidates positions) policy =
          .success target := by
  have hvalid := BuildTargetCommand.valid_of_validate hcommand
  constructor
  · exact documented_of_built hvalid (PortfolioPolicy.valid_of_validate hpolicy) h
  · intro marks signalCandidates positions hmarks hcandidates hpositions
    exact built_reordered hvalid hmarks hcandidates hpositions h

end Portfolio

/-! ## A held instrument and a signalled one -/

namespace Scenario

open Portfolio
open scoped CodeHashing

def portfolioPolicy : PortfolioPolicy where
  policyVersion := "1.0.0"
  strategyWeights := [⟨"trend", "1.0.0", 1⟩]
  deadband := 1 / 20
  shrinkage := 1 / 2
  turnoverPenalty := 1 / 10
  maxPositionWeight := 1 / 4
  estimatedCostBps := 10
  currencyQuantum := 1
  longOnly := true

def portfolioMark (instrumentId : UUID) (price : Decimal) : PortfolioMark :=
  ⟨instrumentId, 0, "USD", price, 1⟩

/-- The account holds the first instrument, and the signal is about the second. -/
def buildCommand : BuildTargetCommand where
  targetId := 100
  snapshot :=
    { snapshotId := 200
      accountId := "paper"
      asOf := 0
      accountAggregateSequence := 0
      portfolioSequence := 0
      ledgerSequence := 0
      ledgerHash := none
      cash := [⟨"USD", 100, 0, 1⟩]
      positions := [⟨1, 5, 5, 0, 1⟩]
      pendingOrderIds := [] }
  baseCurrency := "USD"
  marks := [portfolioMark 2 7, portfolioMark 1 10]
  signalCandidates := [candidate 2]

/-- The first instrument is sold, and the second bought up to the bound. -/
theorem buildTarget_documented_held : ∃ target,
    buildTarget .exact buildCommand portfolioPolicy = .success target ∧
      target.allocations.map (·.targetQuantity) = [0, 5] ∧
      target.Documented buildCommand portfolioPolicy := by
  have hbuilt : (buildTarget .exact buildCommand portfolioPolicy).SucceedsWith fun target =>
      target.allocations.map (·.targetQuantity) = [0, 5] := by decide +kernel
  obtain ⟨target, htarget, hquantities⟩ := hbuilt
  have hdocumented := buildTarget_documented (by decide +kernel) (by decide +kernel) htarget
  exact ⟨target, htarget, hquantities, hdocumented.1⟩

end Scenario

end StonksPaper
