import StonksPaper.Portfolio.Target

/-!
# Stronger signals

Every stage from the signals of an instrument to its target quantity is monotone: the score and its
rounding, the deadband with its jump, the shrinkage, the turnover penalty, the clamp and the floor.
A stronger signal never shrinks the target of its instrument, in any context of `decimal`, and it
leaves the other instruments alone.
-/

namespace StonksPaper

open Chain

def PortfolioSignalCandidate.revalued (self : PortfolioSignalCandidate) (value : Decimal)
    (direction : SignalDirection) : PortfolioSignalCandidate :=
  { self with signal := { self.signal with value, direction } }

def BuildTargetCommand.withCandidates (self : BuildTargetCommand)
    (signalCandidates : List PortfolioSignalCandidate) : BuildTargetCommand :=
  { self with signalCandidates }

namespace Portfolio

section

variable {context : Context} {policy : PortfolioPolicy}

/-! ## The stages -/

theorem weightOf_nonneg (hpolicy : policy.Valid) (signal : AlphaSignal) :
    0 ≤ weightOf policy signal := by
  unfold weightOf
  cases hget : Table.get PortfolioStrategyWeight.key policy.strategyWeights.reverse
      (signal.strategyId, signal.strategyVersion) with
  | none => exact le_rfl
  | some weight =>
      have hmem := List.mem_reverse.mp (Table.mem_of_get hget)
      exact (hpolicy.weights_pos weight hmem).le

theorem contribution_mono {candidate : PortfolioSignalCandidate} {value : Decimal}
    (direction : SignalDirection) (hpolicy : policy.Valid)
    (hconfidence : 0 ≤ candidate.signal.confidence) (h : candidate.signal.value ≤ value) :
    contribution context policy candidate.signal ≤
      contribution context policy (candidate.revalued value direction).signal := by
  have hweighted : weightOf policy candidate.signal * candidate.signal.value ≤
      weightOf policy candidate.signal * value :=
    mul_le_mul_of_nonneg_left h (weightOf_nonneg hpolicy _)
  exact Context.round_mul_mono hconfidence (context.round_mono hweighted)

/-- The deadband jumps away from zero on both sides of it. -/
theorem desiredWeight_mono (hpolicy : policy.Valid) : Monotone (desiredWeight context policy) := by
  intro score score' h
  have hshrinkage := hpolicy.shrinkage_pos.le
  unfold desiredWeight
  by_cases hband : InDeadband context policy score
  · by_cases hband' : InDeadband context policy score'
    · rw [if_pos hband, if_pos hband']
    · rw [if_pos hband, if_neg hband']
      refine Context.round_nonneg (mul_nonneg ?_ hshrinkage)
      by_contra hneg
      have habs : |score'| ≤ |score| := by
        rw [abs_of_neg (by linarith), abs_of_neg (by linarith)]
        linarith
      exact hband' ((context.round_mono habs).trans hband)
  · by_cases hband' : InDeadband context policy score'
    · rw [if_neg hband, if_pos hband']
      refine Context.round_nonpos (mul_nonpos_of_nonpos_of_nonneg ?_ hshrinkage)
      by_contra hpos
      have habs : |score| ≤ |score'| := by
        rw [abs_of_pos (by linarith), abs_of_pos (by linarith)]
        exact h
      exact hband ((context.round_mono habs).trans hband')
    · rw [if_neg hband, if_neg hband']
      exact Context.round_mul_mono hshrinkage h

theorem penalizedWeight_mono (hpolicy : policy.Valid) (current : Decimal) :
    Monotone fun score => penalizedWeight context policy score current := by
  intro score score' h
  have hdesired : desiredWeight context policy score ≤ desiredWeight context policy score' :=
    desiredWeight_mono hpolicy h
  have hkept : 0 ≤ context.round (1 - policy.turnoverPenalty) :=
    Context.round_nonneg (sub_nonneg.mpr hpolicy.penalty_le)
  have hmove : context.round (desiredWeight context policy score - current) ≤
      context.round (desiredWeight context policy score' - current) :=
    Context.round_sub_mono hdesired
  exact Context.round_add_mono (Context.round_mul_mono hkept hmove)

theorem boundedWeight_mono : Monotone (boundedWeight policy) :=
  fun _ _ h => min_le_min_left _ (max_le_max_left _ h)

theorem targetQuantity_mono {nav : Decimal} {mark : PortfolioMark} (hnav : 0 ≤ nav)
    (hprice : 0 < mark.price) (hquantum : 0 < mark.quantityQuantum) :
    Monotone fun bounded => targetQuantity context bounded nav mark := by
  intro bounded bounded' h
  exact Context.floorTo_mono hquantum
    (Context.round_div_mono hprice.le (Context.round_mul_mono hnav h))

/-- An instrument whose score is not lower has no lower target. -/
theorem Allocated.targetQuantity_le {nav : Decimal} {position : Option PositionBalance}
    {mark : PortfolioMark} {candidates candidates' : List PortfolioSignalCandidate}
    {a a' : TargetAllocation} (h : Allocated context policy nav position mark candidates a)
    (h' : Allocated context policy nav position mark candidates' a') (hpolicy : policy.Valid)
    (hnav : 0 ≤ nav) (hprice : 0 < mark.price) (hquantum : 0 < mark.quantityQuantum)
    (hscore : List.Forall₂ (· ≤ ·) (candidates.map fun c => contribution context policy c.signal)
      (candidates'.map fun c => contribution context policy c.signal)) :
    a.targetQuantity ≤ a'.targetQuantity := by
  obtain ⟨score, hsum, htarget⟩ := h.target
  obtain ⟨score', hsum', htarget'⟩ := h'.target
  have hle := quantize_mono hsum hsum' (Context.sum_mono hscore)
  rw [htarget, htarget', h.current, h'.current]
  exact targetQuantity_mono hnav hprice hquantum
    (boundedWeight_mono (penalizedWeight_mono hpolicy _ hle))

/-! ## Two commands -/

variable {command : BuildTargetCommand} {before after : List PortfolioSignalCandidate}
  {candidate : PortfolioSignalCandidate} {value : Decimal} {direction : SignalDirection}

def revaluing (candidate : PortfolioSignalCandidate) (value : Decimal)
    (direction : SignalDirection) (c : PortfolioSignalCandidate) : PortfolioSignalCandidate :=
  if c = candidate then c.revalued value direction else c

@[simp] theorem revaluing_signalId (c : PortfolioSignalCandidate) :
    (revaluing candidate value direction c).signal.signalId = c.signal.signalId := by
  unfold revaluing
  split <;> rfl

@[simp] theorem revaluing_instrumentId (c : PortfolioSignalCandidate) :
    (revaluing candidate value direction c).signal.instrumentId = c.signal.instrumentId := by
  unfold revaluing
  split <;> rfl

/-- One of the candidates is revalued, and no other: no two have one signal. -/
theorem map_revaluing
    (hunique : ((before ++ candidate :: after).map (·.signal.signalId)).Nodup) :
    (before ++ candidate :: after).map (revaluing candidate value direction) =
      before ++ candidate.revalued value direction :: after := by
  have hnodup := List.Nodup.of_map _ hunique
  rw [List.nodup_append, List.nodup_cons] at hnodup
  obtain ⟨-, ⟨hafter, -⟩, hbefore⟩ := hnodup
  have hkept (cs : List PortfolioSignalCandidate) (hcs : candidate ∉ cs) :
      cs.map (revaluing candidate value direction) = cs := by
    have hsame : cs.map (revaluing candidate value direction) = cs.map fun c => c := by
      refine List.map_congr_left fun c hc => if_neg ?_
      rintro rfl
      exact hcs hc
    rw [hsame, List.map_id']
  rw [List.map_append, List.map_cons, hkept before fun h => hbefore _ h _ List.mem_cons_self rfl,
    hkept after hafter, revaluing, if_pos rfl]

theorem candidatesOf_revalued (instrumentId : UUID) :
    (command.withCandidates (command.signalCandidates.map
      (revaluing candidate value direction))).candidatesOf instrumentId =
        (command.candidatesOf instrumentId).map (revaluing candidate value direction) := by
  rw [BuildTargetCommand.candidatesOf, BuildTargetCommand.candidates,
    show (command.withCandidates (command.signalCandidates.map
      (revaluing candidate value direction))).signalCandidates = command.signalCandidates.map
        (revaluing candidate value direction) from rfl, sorted_map revaluing_signalId,
    List.filter_map]
  simp only [Function.comp_def, revaluing_instrumentId]
  rfl

theorem candidatesOf_other {instrumentId : UUID}
    (hother : candidate.signal.instrumentId ≠ instrumentId) :
    (command.candidatesOf instrumentId).map (revaluing candidate value direction) =
      command.candidatesOf instrumentId := by
  have hsame : (command.candidatesOf instrumentId).map (revaluing candidate value direction) =
      (command.candidatesOf instrumentId).map fun c => c := by
    refine List.map_congr_left fun c hc => if_neg ?_
    rintro rfl
    exact hother (of_decide_eq_true (List.mem_filter.mp hc).2)
  rw [hsame, List.map_id']

theorem instrumentIds_revalued :
    (command.withCandidates (command.signalCandidates.map
      (revaluing candidate value direction))).instrumentIds = command.instrumentIds := by
  refine (instrumentIds_sorted _).eq_of_mem_iff (instrumentIds_sorted _) fun instrumentId => ?_
  have hids : (command.signalCandidates.map (revaluing candidate value direction)).map
      (·.signal.instrumentId) = command.signalCandidates.map (·.signal.instrumentId) := by
    rw [List.map_map]
    exact List.map_congr_left fun c _ => revaluing_instrumentId c
  rw [mem_instrumentIds, mem_instrumentIds, ← hids]
  rfl

/-- Revaluing upwards lowers no contribution. -/
theorem contributions_le (hcommand : command.Valid) (hpolicy : policy.Valid)
    (hvalue : candidate.signal.value ≤ value) (instrumentId : UUID) :
    List.Forall₂ (· ≤ ·)
      ((command.candidatesOf instrumentId).map fun c => contribution context policy c.signal)
      (((command.candidatesOf instrumentId).map (revaluing candidate value direction)).map fun c =>
        contribution context policy c.signal) := by
  rw [List.map_map, List.forall₂_map_left_iff, List.forall₂_map_right_iff, List.forall₂_same]
  intro c hc
  have hmem : c ∈ command.signalCandidates := mem_sorted.mp (List.mem_filter.mp hc).1
  rw [Function.comp_apply, revaluing]
  split
  · rename_i heq
    subst heq
    exact contribution_mono direction hpolicy (hcommand.confidence_nonneg c hmem) hvalue
  · exact le_rfl

/-- The other allocation is of the same instrument; it is no smaller where the signal is about the
instrument, and it is the same elsewhere. -/
structure NotWeaker (instrumentId : UUID) (a a' : TargetAllocation) : Prop where
  instrument : a.instrumentId = a'.instrumentId
  stronger : a.instrumentId = instrumentId → a.targetQuantity ≤ a'.targetQuantity
  other : a.instrumentId ≠ instrumentId → a = a'

end

/-- A stronger signal does not shrink the target of its instrument, and it leaves the targets of the
others alone. -/
theorem allocations_notWeaker [Hashing] {context : Context} {command : BuildTargetCommand}
    {policy : PortfolioPolicy} {before after : List PortfolioSignalCandidate}
    {candidate : PortfolioSignalCandidate} {value : Decimal} {direction : SignalDirection}
    {target target' : PortfolioTarget} (hcommand : command.validate = .success ())
    (hpolicy : policy.validate context = .success ())
    (hcandidates : command.signalCandidates = before ++ candidate :: after)
    (hvalue : candidate.signal.value ≤ value)
    (h : buildTarget context command policy = .success target)
    (h' : buildTarget context
      (command.withCandidates (before ++ candidate.revalued value direction :: after)) policy =
        .success target') :
    List.Forall₂ (NotWeaker candidate.signal.instrumentId) target.allocations
      target'.allocations := by
  have hvalid := BuildTargetCommand.valid_of_validate hcommand
  have hpolicyValid := PortfolioPolicy.valid_of_validate hpolicy
  obtain ⟨haccepts, allocations, turnover, cost, hallocations, -, hcreate⟩ :=
    buildTarget_eq_success.mp h
  have hunique := haccepts.signals_unique
  rw [hcandidates] at hunique
  rw [← map_revaluing hunique, ← hcandidates] at h'
  obtain ⟨-, allocations', turnover', cost', hallocations', -, hcreate'⟩ :=
    buildTarget_eq_success.mp h'
  obtain ⟨-, rfl⟩ := create_eq_success.mp hcreate
  obtain ⟨-, rfl⟩ := create_eq_success.mp hcreate'
  rw [instrumentIds_revalued] at hallocations'
  refine (Attempt.mapM_eq_success.mp hallocations).join (Attempt.mapM_eq_success.mp hallocations')
    fun instrumentId a a' ha ha' => ?_
  simp only [allocationOf, Attempt.bind_eq_success, orFail_eq_success] at ha ha'
  obtain ⟨mark, hmark, hallocation⟩ := ha
  obtain ⟨mark', hmark', hallocation'⟩ := ha'
  obtain rfl : mark = mark' := Option.some.inj (hmark.symm.trans hmark')
  rw [candidatesOf_revalued] at hallocation'
  have hallocated := allocated_of_allocation hallocation
  have hallocated' := allocated_of_allocation hallocation'
  have hid : a.instrumentId = instrumentId := hallocated.instrument.trans (Table.key_of_get hmark)
  have hmem := Table.mem_of_get hmark
  exact
    { instrument := hallocated.instrument.trans hallocated'.instrument.symm
      stronger := fun _ => hallocated.targetQuantity_le hallocated' hpolicyValid haccepts.nav_pos.le
        (hvalid.price_pos mark hmem) (hvalid.quantum_pos mark hmem)
        (contributions_le hvalid hpolicyValid hvalue instrumentId)
      other := fun hne => by
        rw [candidatesOf_other (hid ▸ hne.symm)] at hallocation'
        exact Attempt.success.inj (hallocation.symm.trans hallocation') }

end Portfolio

/-! ## A weaker signal -/

namespace Scenario

open Portfolio
open scoped CodeHashing

def faintCandidate : PortfolioSignalCandidate := (candidate 2).revalued (1 / 5) .long

def faintCommand : BuildTargetCommand := buildCommand.withCandidates [faintCandidate]

/-- The second instrument is bought in a smaller quantity when its signal is weaker. -/
theorem allocations_notWeaker_faint : ∃ target target',
    buildTarget (.significant 28) faintCommand portfolioPolicy = .success target ∧
      buildTarget (.significant 28) buildCommand portfolioPolicy = .success target' ∧
      target.allocations.map (·.targetQuantity) = [0, 1] ∧
      target'.allocations.map (·.targetQuantity) = [0, 5] ∧
      List.Forall₂ (NotWeaker 2) target.allocations target'.allocations := by
  have hfaint : (buildTarget (.significant 28) faintCommand portfolioPolicy).SucceedsWith
      fun target => target.allocations.map (·.targetQuantity) = [0, 1] := by decide +kernel
  have hbuilt : (buildTarget (.significant 28) buildCommand portfolioPolicy).SucceedsWith
      fun target => target.allocations.map (·.targetQuantity) = [0, 5] := by decide +kernel
  obtain ⟨target, htarget, hquantities⟩ := hfaint
  obtain ⟨target', htarget', hquantities'⟩ := hbuilt
  have hstronger := @allocations_notWeaker _ (.significant 28) faintCommand portfolioPolicy [] []
    faintCandidate 1 .long target target' (by decide +kernel) (by decide +kernel) rfl
    (by decide +kernel) htarget htarget'
  exact ⟨target, target', htarget, htarget', hquantities, hquantities', hstronger⟩

end Scenario

end StonksPaper
