import StonksPaper.Base.Aligned
import StonksPaper.Portfolio.Build

/-!
# What a built target comes from

A target is built exactly when the command is refused for no reason and every calculation returns.
The order in which a command lists its marks, its signals and its positions does not matter to it.
-/

namespace StonksPaper

open Chain Quantum

namespace Portfolio

section

variable {context : Context} {command : BuildTargetCommand} {policy : PortfolioPolicy}

/-- `build_target` has no reason to refuse the command. -/
structure Accepts [Hashing] (context : Context) (command : BuildTargetCommand)
    (policy : PortfolioPolicy) :
    Prop where
  cash : command.snapshot.cash.map (·.currency) = [command.baseCurrency]
  cash_quantum : ∀ cash ∈ command.snapshot.cash, cash.quantum = policy.currencyQuantum
  currency : ∀ mark ∈ command.marks, mark.currency = command.baseCurrency
  marks_unique : Table.Unique PortfolioMark.instrumentId command.marks
  marks_past : ∀ mark ∈ command.marks, mark.asOf ≤ command.snapshot.asOf
  signals_unique : (command.signalCandidates.map (·.signal.signalId)).Nodup
  keys_unique : (command.signalCandidates.map fun c =>
    (c.signal.instrumentId, c.signal.strategyId, c.signal.strategyVersion)).Nodup
  usable : ∀ candidate ∈ command.signalCandidates,
    candidateUsable command.snapshot.asOf policy candidate = .success ()
  quantum : ∀ position ∈ command.snapshot.positions,
    ∀ mark ∈ command.mark position.instrumentId, mark.quantityQuantum = position.quantum
  some_instrument : command.instrumentIds ≠ []
  marked : ∀ instrumentId ∈ command.instrumentIds, command.mark instrumentId ≠ none
  nav_pos : 0 < command.netAssetValue context

theorem candidateError_eq_success [Hashing] {at_ : UTCDateTime} {u : Unit} :
    candidateError command.candidates at_ policy = .success u ↔
      ((command.signalCandidates.map (·.signal.signalId)).Nodup ∧
        (command.signalCandidates.map fun c =>
          (c.signal.instrumentId, c.signal.strategyId, c.signal.strategyVersion)).Nodup) ∧
      ∀ candidate ∈ command.signalCandidates,
        candidateUsable at_ policy candidate = .success () := by
  have hperm := sorted_perm (·.signal.signalId) command.signalCandidates
  simp only [candidateError, Attempt.bind_eq_success, failUnless_eq_success,
    Attempt.forM_eq_success, BuildTargetCommand.candidates, mem_sorted, (hperm.map _).nodup_iff]
  constructor
  · intro h
    obtain ⟨_, hall⟩ := h
    exact hall
  · intro hall
    exact ⟨(), hall⟩

theorem positionQuantumError_eq_success {u : Unit} :
    positionQuantumError command = .success u ↔ ∀ position ∈ command.snapshot.positions,
      ∀ mark ∈ command.mark position.instrumentId, mark.quantityQuantum = position.quantum := by
  simp only [positionQuantumError, Attempt.forM_eq_success, Attempt.demand_eq_success]

theorem mem_instrumentIds {instrumentId : UUID} : instrumentId ∈ command.instrumentIds ↔
    instrumentId ∈ command.snapshot.positions.map (·.instrumentId) ∨
      instrumentId ∈ command.signalCandidates.map (·.signal.instrumentId) := by
  have hperm := (sorted_perm (·.signal.signalId) command.signalCandidates).map
      (·.signal.instrumentId)
  rw [BuildTargetCommand.instrumentIds, mem_sorted, List.mem_dedup, List.mem_append,
    BuildTargetCommand.candidates, hperm.mem_iff]

theorem create_eq_success [Hashing] {values target : PortfolioTarget} :
    PortfolioTarget.create values = .success target ↔
      target.validate = .success () ∧
        { values with calculationHash := values.expectedCalculationHash } = target := by
  rw [PortfolioTarget.create, modelValidate_eq_success]
  constructor
  · intro h
    obtain ⟨hvalid, heq⟩ := h
    exact ⟨heq ▸ hvalid, heq⟩
  · intro h
    obtain ⟨hvalid, heq⟩ := h
    exact ⟨heq.symm ▸ hvalid, heq⟩

theorem buildTarget_eq_success [Hashing] {target : PortfolioTarget} :
    buildTarget context command policy = .success target ↔ Accepts context command policy ∧
      ∃ allocations turnover cost,
        command.instrumentIds.mapM
          (allocationOf context command policy (command.netAssetValue context)) =
            .success allocations ∧
        targetCosts context command policy (command.netAssetValue context) allocations =
          .success (turnover, cost) ∧
        PortfolioTarget.create (targetValues command policy allocations turnover cost) =
          .success target := by
  simp only [buildTarget, validatedInputs, currencyError, portfolioNav, Attempt.bind_eq_success,
    failUnless_eq_success, Attempt.demand_eq_success, candidateError_eq_success,
    positionQuantumError_eq_success, List.filter_eq_nil_iff, decide_eq_true_eq, Attempt.pure_eq,
    Attempt.success.injEq]
  constructor
  · intro h
    obtain ⟨_, ⟨_, ⟨_, hcash, _, hquantum, hcurrency⟩, _, hmarks, _, hpast, _, ⟨hids, husable⟩,
      hpositions⟩, _, hsome, _, hmarked, nav, ⟨_, -, _, hpos, rfl⟩, allocations, hallocations,
      ⟨turnover, cost⟩, hcosts, hcreate⟩ := h
    have haccepts : Accepts context command policy :=
      { cash := hcash
        cash_quantum := hquantum
        currency := hcurrency
        marks_unique := hmarks
        marks_past := hpast
        signals_unique := hids.1
        keys_unique := hids.2
        usable := husable
        quantum := hpositions
        some_instrument := hsome
        marked := hmarked
        nav_pos := hpos }
    exact ⟨haccepts, allocations, turnover, cost, hallocations, hcosts, hcreate⟩
  · intro h
    obtain ⟨h, allocations, turnover, cost, hallocations, hcosts, hcreate⟩ := h
    have hheld : ∀ id ∈ command.snapshot.positions.map (·.instrumentId), command.mark id ≠ none :=
      fun id hid => h.marked id (mem_instrumentIds.mpr (.inl hid))
    exact ⟨(), ⟨(), ⟨(), h.cash, (), h.cash_quantum, h.currency⟩, (), h.marks_unique, (),
      h.marks_past, (), ⟨⟨h.signals_unique, h.keys_unique⟩, h.usable⟩, h.quantum⟩, (),
      h.some_instrument, (), h.marked, _, ⟨(), hheld, (), h.nav_pos, rfl⟩, allocations,
        hallocations,
      (turnover, cost), hcosts, hcreate⟩

/-! ## Rounded results -/

theorem quantizeUnits_eq_success {value quantum : Decimal} {units : ℤ} :
    quantizeUnits context value quantum = .success units ↔
      context.Holds (halfEven (value / quantum)) ∧ halfEven (value / quantum) = units := by
  unfold quantizeUnits
  by_cases hholds : context.Holds (halfEven (value / quantum))
  · simp [hholds]
  · simp [hholds]

theorem quantize_eq_success {value result : Decimal} :
    quantize context value = .success result ↔
      context.Holds (halfEven (value / calculationQuantum)) ∧
        halfEvenTo value calculationQuantum = result := by
  simp only [quantize, Attempt.bind_eq_success, quantizeUnits_eq_success, Attempt.pure_eq,
    Attempt.success.injEq, halfEvenTo]
  constructor
  · intro h
    obtain ⟨units, ⟨hholds, hunits⟩, hresult⟩ := h
    exact ⟨hholds, hunits ▸ hresult⟩
  · intro h
    obtain ⟨hholds, hresult⟩ := h
    exact ⟨_, ⟨hholds, rfl⟩, hresult⟩

theorem calculationQuantum_pos : 0 < calculationQuantum := by norm_num [calculationQuantum]

theorem quantize_mono {x y u v : Decimal} (hx : quantize context x = .success u)
    (hy : quantize context y = .success v) (h : x ≤ y) : u ≤ v := by
  rw [← (quantize_eq_success.mp hx).2, ← (quantize_eq_success.mp hy).2]
  exact halfEvenTo_mono calculationQuantum_pos h

theorem costOf_exact {notional cost : Decimal} (h : costOf .exact policy notional = .success cost) :
    cost = halfEvenTo (notional * policy.estimatedCostBps / 10000) policy.currencyQuantum := by
  simp only [costOf, currencyQuantize, Attempt.bind_eq_success, quantizeUnits_eq_success,
    Attempt.pure_eq, Attempt.success.injEq, Context.round_exact, div_one] at h
  obtain ⟨units, ⟨-, hunits⟩, hcost⟩ := h
  rw [← hcost, ← hunits, halfEvenTo]

/-! ## Allocations -/

/-- What is read off an allocation of the signals of an instrument. -/
structure Allocated (context : Context) (policy : PortfolioPolicy) (nav : Decimal)
    (position : Option PositionBalance) (mark : PortfolioMark)
    (candidates : List PortfolioSignalCandidate) (a : TargetAllocation) : Prop where
  instrument : a.instrumentId = mark.instrumentId
  quantum : a.quantityQuantum = mark.quantityQuantum
  current : a.currentQuantity = position.elim 0 (·.quantity)
  delta : a.deltaQuantity = context.round (a.targetQuantity - a.currentQuantity)
  weight : quantize context (weightAt context a.targetQuantity nav mark) = .success a.targetWeight
  target : ∃ score, quantize context
      (context.sum (candidates.map fun c => contribution context policy c.signal)) =
        .success score ∧
    a.targetQuantity = targetQuantity context (boundedWeight policy
      (penalizedWeight context policy score (weightAt context a.currentQuantity nav mark))) nav mark

theorem allocated_of_allocation {nav : Decimal} {position : Option PositionBalance}
    {mark : PortfolioMark} {candidates : List PortfolioSignalCandidate} {a : TargetAllocation}
    (h : allocation context policy nav position mark candidates = .success a) :
    Allocated context policy nav position mark candidates a := by
  simp only [allocation, ensembleScore, Attempt.bind_eq_success, Attempt.pure_eq,
    Attempt.success.injEq, modelValidate_eq_success] at h
  obtain ⟨⟨score, available⟩, ⟨_, hscore, _, -, hpair⟩, weight, hweight, _, -, _, -, -, rfl⟩ := h
  obtain ⟨rfl, rfl⟩ := Prod.mk.inj hpair
  exact
    { instrument := rfl
      quantum := rfl
      current := rfl
      delta := rfl
      weight := hweight
      target := ⟨_, hscore, rfl⟩ }

theorem allocations_of_mapM {nav : Decimal} {instrumentIds : List UUID}
    {allocations : List TargetAllocation}
    (h : instrumentIds.mapM (allocationOf context command policy nav) = .success allocations) :
    List.Forall₂ (fun instrumentId a => ∃ mark, command.mark instrumentId = some mark ∧
      Allocated context policy nav (command.position instrumentId) mark
        (command.candidatesOf instrumentId) a) instrumentIds allocations := by
  refine (Attempt.mapM_eq_success.mp h).imp fun instrumentId a ha => ?_
  simp only [allocationOf, Attempt.bind_eq_success, orFail_eq_success] at ha
  obtain ⟨mark, hmark, hallocation⟩ := ha
  exact ⟨mark, hmark, allocated_of_allocation hallocation⟩

theorem instrumentIds_of_mapM {nav : Decimal} {instrumentIds : List UUID}
    {allocations : List TargetAllocation}
    (h : instrumentIds.mapM (allocationOf context command policy nav) = .success allocations) :
    allocations.map (·.instrumentId) = instrumentIds := by
  have hids := (allocations_of_mapM h).map_eq (f := id) (g := TargetAllocation.instrumentId)
    fun instrumentId a ⟨mark, hmark, hallocated⟩ => by
      rw [hallocated.instrument, Table.key_of_get hmark, id]
  rw [← hids, List.map_id]

end

end Portfolio

end StonksPaper
