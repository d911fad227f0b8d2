import StonksPaper.Broker.Window

/-!
# Keeping a live order

A bar that is too thin, or that a limit order does not reach, should leave a funded order alive.
The broker looks at one bar alone, and it rejects an order of which that bar can fill no quantum,
whichever of volume, cash and position was missing.
-/

namespace StonksPaper

open Chain Quantum

/-! ## The sizes of a fill -/

section

variable [Arithmetic] {policy : PaperExecutionPolicy} {request : PaperExecutionRequest}
  {bar : ExecutionBar}
  {price quantity quantum available : Decimal}

/-- Fewer units at a positive price cost no more. -/
theorem cashConsumption_mono (hp : policy.Valid) (hprice : 0 < price) {less : Decimal}
    (h : less ≤ quantity) : cashConsumption less price policy ≤
    cashConsumption quantity price policy := by
  have hnotional : kept (less * price) ≤ kept (quantity * price) :=
    kept_mono (mul_le_mul_of_nonneg_right h hprice.le)
  have hrate : kept (kept (kept (less * price) * policy.feeBps) / bps) ≤
      kept (kept (kept (quantity * price) * policy.feeBps) / bps) :=
    kept_mono <| div_le_div_of_nonneg_right
      (kept_mono (mul_le_mul_of_nonneg_right hnotional hp.fee_bps_nonneg)) (by norm_num [bps])
  have hunit : kept (less * policy.perUnitFee) ≤ kept (quantity * policy.perUnitFee) :=
    kept_mono (mul_le_mul_of_nonneg_right h hp.per_unit_nonneg)
  have hraw := max_le_max_right policy.minimumFee (kept_mono (add_le_add hrate hunit))
  have hfee : fee less price policy ≤ fee quantity price policy :=
    Context.ceilTo_mono hp.fee_quantum_pos hraw
  exact kept_mono (add_le_add hnotional hfee)

/-- The loop does not pass a candidate of one quantum that is affordable. -/
theorem lowerCandidate_pos (hp : policy.Valid) (hprice : 0 < price)
    (hfunds : cashConsumption quantum price policy ≤ available) (fuel : ℕ) {candidate : Decimal}
    (hpos : 0 < candidate) :
    0 < lowerCandidate price quantum available policy fuel candidate := by
  induction fuel generalizing candidate with
  | zero => exact hpos
  | succ fuel ih =>
      unfold lowerCandidate
      split
      · rename_i hcost
        have hmore : quantum < candidate := by
          by_contra hle
          have hcheap := cashConsumption_mono hp hprice (not_lt.mp hle)
          exact absurd hcost.2 (not_lt.mpr (hcheap.trans hfunds))
        exact ih (kept_pos_iff.mpr (sub_pos.mpr hmore))
      · exact hpos

theorem candidate_pos (fuel : ℕ) {candidate : Decimal}
    (h : 0 < lowerCandidate price quantum available policy fuel candidate) : 0 < candidate := by
  cases fuel with
  | zero => exact h
  | succ fuel =>
      unfold lowerCandidate at h
      split at h
      · rename_i hcost
        exact hcost.1
      · exact h

/-- The cash less the minimum fee pays one quantum at the price with its fees. -/
def PaysBothFees (policy : PaperExecutionPolicy) (request : PaperExecutionRequest)
    (price : Decimal) : Prop :=
  1 ≤ kept (kept (max 0 (kept (request.reservation.remainingAmount - policy.minimumFee)) /
    approximateUnit price policy) / request.command.intent.quantityQuantum)

/-- When a positive quantity is affordable: the conservative estimate leaves room for a quantum. -/
theorem affordableQuantity_pos_iff (hq : 0 < quantum) (hp : policy.Valid) (hprice : 0 < price)
    (hfunds : cashConsumption quantum price policy ≤ available) {affordable : Decimal}
    (h : affordableQuantity quantity price quantum available policy = .success affordable) :
    0 < affordable ↔ 0 < quantity ∧
      1 ≤ kept (kept (max 0 (kept (available - policy.minimumFee)) /
        approximateUnit price policy) / quantum) := by
  simp only [affordableQuantity, Attempt.bind_eq_success, Attempt.require_eq_success,
    Attempt.pure_eq, Attempt.success.injEq] at h
  obtain ⟨_, -, rfl⟩ := h
  have hestimate : 0 < affordableEstimate price quantum available policy ↔
      1 ≤ kept (kept (max 0 (kept (available - policy.minimumFee)) /
        approximateUnit price policy) / quantum) := Context.floorTo_pos_iff hq
  rw [← hestimate, ← lt_min_iff]
  constructor
  · intro hpos
    exact candidate_pos _ ((lt_max_iff.mp hpos).resolve_left (lt_irrefl 0))
  · intro hcandidate
    exact lt_max_of_lt_right (lowerCandidate_pos hp hprice hfunds _ hcandidate)

/-- The order has a remainder, and the bar's volume leaves it a quantum. -/
def ThickEnough (policy : PaperExecutionPolicy) (request : PaperExecutionRequest)
    (bar : ExecutionBar) : Prop :=
  alreadyFilled request < request.command.intent.quantity ∧
    1 ≤ kept (kept (bar.volume * policy.maxVolumeParticipation) /
      request.command.intent.quantityQuantum)

theorem volumeCap_pos_iff (hq : 0 < quantum) : 0 < volumeCap bar quantum policy ↔
    1 ≤ kept (kept (bar.volume * policy.maxVolumeParticipation) / quantum) :=
  Context.floorTo_pos_iff hq

theorem volumeLimited_pos_iff (hq : 0 < request.command.intent.quantityQuantum) :
    0 < volumeLimited request bar policy ↔ ThickEnough policy request bar := by
  unfold volumeLimited ThickEnough
  rw [lt_min_iff, kept_pos_iff, sub_pos, volumeCap_pos_iff hq]

/-- The reservation pays one quantum at the price, or holds a part of the position. -/
def Funds (policy : PaperExecutionPolicy) (request : PaperExecutionRequest) (price : Decimal) :
    Prop :=
  0 < price ∧ match request.reservation.kind with
    | .cash => cashConsumption request.command.intent.quantityQuantum price policy ≤
        request.reservation.remainingAmount
    | .position => 0 < request.reservation.remainingAmount

instance (policy : PaperExecutionPolicy) (request : PaperExecutionRequest) (price : Decimal) :
    Decidable (Funds policy request price) :=
  decidable_of_iff (0 < price ∧ if request.reservation.kind = .cash then
    cashConsumption request.command.intent.quantityQuantum price policy ≤
      request.reservation.remainingAmount else 0 < request.reservation.remainingAmount) <| by
    unfold Funds
    cases request.reservation.kind <;> simp

instance (request : PaperExecutionRequest) (bar : ExecutionBar) :
    Decidable (request.FirstInWindow bar) :=
  inferInstanceAs (Decidable (_ ∧ _ ∧ ∀ other ∈ request.bars, _))

/-- When a funded order gets a positive quantity on a bar. -/
theorem fillQuantity_pos_iff (hp : policy.Valid)
    (hq : 0 < request.command.intent.quantityQuantum) (hfunds : Funds policy request price)
    (h : fillQuantity request bar price policy = .success quantity) :
    0 < quantity ↔ ThickEnough policy request bar ∧
      (request.reservation.kind = .cash → PaysBothFees policy request price) := by
  obtain ⟨hprice, hheld⟩ := hfunds
  rw [← volumeLimited_pos_iff hq]
  cases hkind : request.reservation.kind with
  | position =>
      simp only [hkind] at hheld
      simp only [fillQuantity, hkind, Attempt.pure_eq, Attempt.success.injEq] at h
      rw [← h, lt_min_iff]
      simp [hheld]
  | cash =>
      simp only [hkind] at hheld
      simp only [fillQuantity, hkind] at h
      rw [affordableQuantity_pos_iff hq hp hprice hheld h]
      simp [PaysBothFees]

omit [Arithmetic] in
theorem nextBar_of_firstInWindow (hsorted : SortedUnique (request.bars.map (·.opensAt)))
    (h : request.FirstInWindow bar) : nextBar request = some bar := by
  obtain ⟨hmem, hwindow, hfirst⟩ := h
  obtain ⟨found, hfound⟩ := nextBar_isSome_iff.mpr ⟨bar, hmem, hwindow⟩
  obtain ⟨hmem', hwindow', hfirst'⟩ := firstInWindow_of_nextBar hsorted hfound
  have hopens : found.opensAt = bar.opensAt :=
    le_antisymm (hfirst' bar hmem hwindow) (hfirst found hmem' hwindow')
  rw [hfound, List.inj_on_of_nodup_map hsorted.2 hmem' hmem hopens]

end

/-! ## What the order loses -/

/-- The broker's policy takes the order at all. -/
def Supported (policy : PaperExecutionPolicy) (request : PaperExecutionRequest) : Prop :=
  request.command.intent.orderType ∈ policy.supportedOrderTypes ∧
    request.command.intent.timeInForce ∈ policy.supportedTimeInForce

/-- The order has a price on the bar, and the reservation funds it. -/
def FundedOn [Arithmetic] (policy : PaperExecutionPolicy) (request : PaperExecutionRequest)
    (bar : ExecutionBar) : Prop :=
  ∃ price, fillPrice request bar policy = some price ∧ Funds policy request price

/-- The bar trades at the limit of the order or better. -/
def ReachesLimit (intent : OrderIntent) (bar : ExecutionBar) : Prop :=
  ∃ limit ∈ intent.limitPrice, match intent.side with
    | .buy => bar.low ≤ limit
    | .sell => limit ≤ bar.high

instance (intent : OrderIntent) (bar : ExecutionBar) : Decidable (ReachesLimit intent bar) :=
  decidable_of_iff (∃ limit ∈ intent.limitPrice,
    if intent.side = .buy then bar.low ≤ limit else limit ≤ bar.high) <| by
      unfold ReachesLimit
      cases intent.side <;> simp

/-- The bar is the first in the window to reach the limit. -/
def FirstReaching (request : PaperExecutionRequest) (bar : ExecutionBar) : Prop :=
  (bar ∈ request.bars ∧ request.InWindow bar ∧ ReachesLimit request.command.intent bar) ∧
    ∀ other ∈ request.bars, request.InWindow other → other.opensAt < bar.opensAt →
      ¬ ReachesLimit request.command.intent other

instance (request : PaperExecutionRequest) (bar : ExecutionBar) :
    Decidable (FirstReaching request bar) :=
  inferInstanceAs (Decidable (_ ∧ ∀ other ∈ request.bars, _))

/-- A thin or uncrossed bar does not lose the order. -/
structure StaysLive [Arithmetic] (policy : PaperExecutionPolicy) (request : PaperExecutionRequest)
    (o : PaperExecutionOutcome) : Prop where
  /-- A bar without volume for a quantum does not end it. -/
  thin : Supported policy request → ∀ bar, request.FirstInWindow bar → FundedOn policy request bar →
    volumeCap bar request.command.intent.quantityQuantum policy = 0 → o.receipt.status ≠ .rejected
  /-- The reservation is called insufficient when it cannot pay for a quantum. -/
  insufficient : o.receipt.status = .rejected →
    o.receipt.event.reason = some "reservation_insufficient" →
      ∀ bar, request.FirstInWindow bar → ¬ FundedOn policy request bar
  /-- A limit order is filled on the first bar that reaches its limit. -/
  reached : Supported policy request → request.command.intent.orderType = .limit →
    ∀ bar, FirstReaching request bar → FundedOn policy request bar →
      ∃ f ∈ o.receipt.fills, f ∉ request.priorFills ∧ f.occurredAt = bar.opensAt

/-- A supported order of which the first bar in the window can fill a quantum, and no later bar is
the first to reach the limit. -/
structure FirstBarServes [Arithmetic] (policy : PaperExecutionPolicy)
    (request : PaperExecutionRequest) :
    Prop where
  quantum : ∀ bar price, request.FirstInWindow bar → fillPrice request bar policy = some price →
    Funds policy request price → ThickEnough policy request bar ∧
      (request.reservation.kind = .cash → PaysBothFees policy request price)
  limit : request.command.intent.orderType = .limit → ∀ bar, FirstReaching request bar →
    FundedOn policy request bar → request.FirstInWindow bar

section

variable [Arithmetic] [Hashing] {policy : PaperExecutionPolicy} {request : PaperExecutionRequest}
  {bar : ExecutionBar} {price : Decimal} {o : PaperExecutionOutcome}

omit [Hashing] in
theorem nextPrice_of_firstInWindow (hsorted : SortedUnique (request.bars.map (·.opensAt)))
    (hbar : request.FirstInWindow bar) (hprice : fillPrice request bar policy = some price) :
    nextPrice request policy = some (bar, price) := by
  simp [nextPrice, nextBar_of_firstInWindow hsorted hbar, hprice]

/-! ## When an order is rejected for its reservation -/

theorem terminalWithoutFill_reports {reason : String} {at_ : UTCDateTime}
    (h : terminalWithoutFill request policy .rejected reason at_ = .success o) :
    o.receipt.status = .rejected ∧ o.receipt.event.reason = some reason := by
  obtain ⟨event, happend, h⟩ := Attempt.bind_eq_success.mp h
  obtain ⟨change, -, h⟩ := Attempt.bind_eq_success.mp h
  obtain ⟨-, hreceipt, -, hevent, -⟩ := outcome_eq_success h
  rw [hreceipt.event_status, hevent, (appendOrderEvent_eq_success.mp happend).2]
  exact ⟨rfl, rfl⟩

theorem not_rejected (hr : request.Valid) (hsupported : AvoidsRejection policy request)
    (h : execute policy request = .success o) : o.receipt.status ≠ .rejected := by
  obtain ⟨-, events, latest, fills, change, hexit, ho⟩ := execute_exit h
  obtain ⟨-, hreceipt, -, hevent, -⟩ := outcome_eq_success ho
  rw [hreceipt.event_status, hevent]
  cases hexit with
  | rejected refused appended released => exact absurd hsupported refused
  | pending supported untradable opened =>
      intro hrejected
      have hopen := openedEvents_not_terminal hr opened
      rw [hrejected] at hopen
      exact hopen (by decide)
  | expired supported untradable opened appended released =>
      rw [appendOrderEvent_toStatus appended]
      decide
  | filled opened step rests =>
      rw [appendOrderEvent_toStatus step.appended]
      rcases fillStatus_cases request.command.intent _ with hfilled | hincomplete
      · rw [hfilled]
        decide
      · rw [hincomplete]
        decide
  | cancelled opened step immediate incomplete appended surplus =>
      rw [appendOrderEvent_toStatus appended]
      decide

/-- The broker calls a reservation insufficient when the sizing leaves nothing to fill. -/
theorem rejectedInsufficient_iff (hr : request.Valid) (h : execute policy request = .success o) :
    (o.receipt.status = .rejected ∧
        o.receipt.event.reason = some "reservation_insufficient") ↔
      Supported policy request ∧ ∃ bar price quantity,
        nextPrice request policy = some (bar, price) ∧
          fillQuantity request bar price policy = .success quantity ∧ quantity ≤ 0 := by
  constructor
  · rintro ⟨hrejected, hreason⟩
    have hrefused : ¬ AvoidsRejection policy request := fun ha => not_rejected hr ha h hrejected
    obtain ⟨_, -, h⟩ := Attempt.bind_eq_success.mp h
    by_cases htype : request.command.intent.orderType ∈ policy.supportedOrderTypes
    · rw [if_neg (not_not.mpr htype)] at h
      by_cases htime : request.command.intent.timeInForce ∈ policy.supportedTimeInForce
      · refine ⟨⟨htype, htime⟩, ?_⟩
        by_contra hnone
        refine hrefused ⟨htype, htime, fun bar price htradable quantity hsized => ?_⟩
        by_contra hle
        exact hnone ⟨bar, price, quantity, htradable, hsized, not_lt.mp hle⟩
      · rw [if_pos htime] at h
        rw [(terminalWithoutFill_reports h).2] at hreason
        exact absurd hreason (by decide)
    · rw [if_pos htype] at h
      rw [(terminalWithoutFill_reports h).2] at hreason
      exact absurd hreason (by decide)
  · rintro ⟨⟨htype, htime⟩, bar, price, quantity, htradable, hsized, hle⟩
    obtain ⟨_, -, h⟩ := Attempt.bind_eq_success.mp h
    rw [if_neg (not_not.mpr htype), if_neg (not_not.mpr htime)] at h
    obtain ⟨⟨events, latest⟩, -, h⟩ := Attempt.bind_eq_success.mp h
    simp only [htradable] at h
    obtain ⟨quantity', hsized', h⟩ := Attempt.bind_eq_success.mp h
    rw [hsized] at hsized'
    cases hsized'
    rw [if_pos hle] at h
    exact terminalWithoutFill_reports h

theorem sized_of_execute (hsupported : Supported policy request)
    (htradable : nextPrice request policy = some (bar, price))
    (h : execute policy request = .success o) :
    ∃ quantity, fillQuantity request bar price policy = .success quantity := by
  obtain ⟨_, -, h⟩ := Attempt.bind_eq_success.mp h
  rw [if_neg (not_not.mpr hsupported.1), if_neg (not_not.mpr hsupported.2)] at h
  obtain ⟨⟨events, latest⟩, -, h⟩ := Attempt.bind_eq_success.mp h
  simp only [htradable] at h
  obtain ⟨quantity, hsized, -⟩ := Attempt.bind_eq_success.mp h
  exact ⟨quantity, hsized⟩

/-! ## The two directions -/

theorem FirstBarServes.of_staysLive (hp : policy.Valid) (hr : request.Valid)
    (h : execute policy request = .success o) (hlive : StaysLive policy request o)
    (hsupported : Supported policy request) : FirstBarServes policy request := by
  have hsorted := requestError_sorted (execute_exit h).1
  constructor
  · intro bar price hbar hprice hfunds
    have htradable := nextPrice_of_firstInWindow hsorted hbar hprice
    obtain ⟨quantity, hsized⟩ := sized_of_execute hsupported htradable h
    rw [← fillQuantity_pos_iff hp hr.command.intent.quantum_pos hfunds hsized]
    by_contra hle
    obtain ⟨hrejected, hreason⟩ := (rejectedInsufficient_iff hr h).mpr
      ⟨hsupported, bar, price, quantity, htradable, hsized, not_lt.mp hle⟩
    exact hlive.insufficient hrejected hreason bar hbar ⟨price, hprice, hfunds⟩
  · intro htype bar hreach hfunded
    obtain ⟨f, hf, hnew, hat⟩ := hlive.reached hsupported htype bar hreach hfunded
    obtain ⟨_, _, _, first, _, _, hfirst, step⟩ := new_fill_first h hf hnew
    have hopens : first.opensAt = bar.opensAt := by
      rw [← hat, (fill_eq_success.mp step.built).1]
      rfl
    rwa [← List.inj_on_of_nodup_map hsorted.2 hfirst.1 hreach.1.1 hopens]

theorem StaysLive.of_firstBarServes (hp : policy.Valid) (hr : request.Valid)
    (h : execute policy request = .success o)
    (hserves : Supported policy request → FirstBarServes policy request) :
    StaysLive policy request o := by
  have hsorted := requestError_sorted (execute_exit h).1
  have hq := hr.command.intent.quantum_pos
  constructor
  · intro hsupported bar hbar hfunded hcap
    obtain ⟨price, hprice, hfunds⟩ := hfunded
    obtain ⟨⟨-, hvolume⟩, -⟩ := (hserves hsupported).quantum bar price hbar hprice hfunds
    exact absurd hcap ((volumeCap_pos_iff hq).mpr hvolume).ne'
  · intro hrejected hreason bar hbar hfunded
    obtain ⟨price, hprice, hfunds⟩ := hfunded
    obtain ⟨hsupported, bar', price', quantity, htradable, hsized, hle⟩ :=
      (rejectedInsufficient_iff hr h).mp ⟨hrejected, hreason⟩
    rw [nextPrice_of_firstInWindow hsorted hbar hprice] at htradable
    cases htradable
    have hpos := (fillQuantity_pos_iff hp hq hfunds hsized).mpr
      ((hserves hsupported).quantum bar price hbar hprice hfunds)
    exact absurd hpos (not_lt.mpr hle)
  · intro hsupported htype bar hreach hfunded
    have hbar := (hserves hsupported).limit htype bar hreach hfunded
    obtain ⟨price, hprice, hfunds⟩ := hfunded
    have htradable := nextPrice_of_firstInWindow hsorted hbar hprice
    refine exists_fill_on h ⟨hsupported.1, hsupported.2,
      fun bar' price' hother quantity hsized => ?_⟩
      htradable
    rw [htradable] at hother
    cases hother
    exact (fillQuantity_pos_iff hp hq hfunds hsized).mpr
      ((hserves hsupported).quantum bar price hbar hprice hfunds)

/-- A thin or uncrossed bar does not lose a funded order exactly when the first bar in the window
has the volume for a quantum, a cash reservation pays the fees and the minimum fee together, and no
later bar is the first to reach the limit. -/
theorem execute_staysLive_iff (policy : PaperExecutionPolicy) (request : PaperExecutionRequest)
    (o : PaperExecutionOutcome) (hp : policy.Valid) (hr : request.Valid)
    (h : execute policy request = .success o) :
    StaysLive policy request o ↔ (Supported policy request → FirstBarServes policy request) :=
  ⟨fun hlive => .of_staysLive hp hr h hlive, fun hserves => .of_firstBarServes hp hr h hserves⟩

end

namespace Scenario

open scoped PythonArithmetic CodeHashing

theorem execute_staysLive_iff_crossed : ∃ o,
    execute policy (request {} {} [bar {}] 50) = .success o ∧
      (StaysLive policy (request {} {} [bar {}] 50) o ↔
        (Supported policy (request {} {} [bar {}] 50) →
          FirstBarServes policy (request {} {} [bar {}] 50))) := by
  have hpolicy : policy.Valid := by decide +kernel
  have hvalid : (request {} {} [bar {}] 50).Valid := by decide +kernel
  have hsuccess : (execute policy (request {} {} [bar {}] 50)).Succeeds := by decide +kernel
  exact hsuccess.imp fun o ho => ⟨ho, execute_staysLive_iff policy _ o hpolicy hvalid ho⟩

def thinBar : ExecutionBar := { bar {} with volume := 1 }

def secondRequest : PaperExecutionRequest :=
  request {} { orderType := .limit, limitPrice := some 90 }
    [bar {}, { bar {} with opensAt := 41, closesAt := 42, availableAt := 43, low := 85 }] 50

def feePolicy : PaperExecutionPolicy := { policy with feeBps := 100, minimumFee := 5 }

def feeRequest : PaperExecutionRequest := request {} { amount := 106 } [bar {}] 50

/-- An order is rejected for a thin bar, one is left pending on the bar that reaches its limit, and
one is rejected although its reservation pays for a unit. -/
theorem execute_loses_order :
    ((request {} {} [thinBar] 50).Valid ∧
      ∃ o, execute policy (request {} {} [thinBar] 50) = .success o ∧
        ¬ StaysLive policy (request {} {} [thinBar] 50) o) ∧
    (secondRequest.Valid ∧ ∃ o, execute policy secondRequest = .success o ∧
      ¬ StaysLive policy secondRequest o) ∧
    (feePolicy.Valid ∧ feeRequest.Valid ∧ ∃ o, execute feePolicy feeRequest = .success o ∧
      ¬ StaysLive feePolicy feeRequest o) := by
  refine ⟨⟨by decide +kernel, ?_⟩, ⟨by decide +kernel, ?_⟩,
    by decide +kernel, by decide +kernel, ?_⟩
  · have hrejected : (execute policy (request {} {} [thinBar] 50)).SucceedsWith fun o =>
        o.receipt.status = .rejected := by decide +kernel
    obtain ⟨o, ho, hrejected⟩ := hrejected
    refine ⟨o, ho, fun hlive => ?_⟩
    exact hlive.thin ⟨by decide, by decide⟩ thinBar (by decide +kernel)
      ⟨101, by decide +kernel, by decide +kernel⟩ (by decide +kernel) hrejected
  · have hunfilled : (execute policy secondRequest).SucceedsWith fun o => o.receipt.fills = [] := by
      decide +kernel
    obtain ⟨o, ho, hunfilled⟩ := hunfilled
    refine ⟨o, ho, fun hlive => ?_⟩
    obtain ⟨f, hf, -⟩ := hlive.reached ⟨by decide, by decide⟩ rfl
      { bar {} with opensAt := 41, closesAt := 42, availableAt := 43, low := 85 }
        (by decide +kernel)
      ⟨90, by decide +kernel, by decide +kernel⟩
    rw [hunfilled] at hf
    exact absurd hf List.not_mem_nil
  · have hrejected : (execute feePolicy feeRequest).SucceedsWith fun o =>
        o.receipt.status = .rejected ∧
          o.receipt.event.reason = some "reservation_insufficient" := by decide +kernel
    obtain ⟨o, ho, hrejected, hreason⟩ := hrejected
    refine ⟨o, ho, fun hlive => ?_⟩
    exact hlive.insufficient hrejected hreason (bar {}) (by decide +kernel)
      ⟨101, by decide +kernel, by decide +kernel⟩

end Scenario

end StonksPaper
