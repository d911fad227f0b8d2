import StonksPaper.Broker.LookAhead

/-!
# The window of an order

An order says when it becomes valid, when it ends, and whether it may rest. The end is checked
wherever an event is appended and the cancelling of a remainder follows every partial fill of an
immediate-or-cancel order, but the start is checked nowhere and an order without a price is kept
whatever its time in force.
-/

namespace StonksPaper

open Chain Quantum

/-- The new fills occur while the order is valid. -/
def FillsWhileValid (request : PaperExecutionRequest) (o : PaperExecutionOutcome) : Prop :=
  ∀ f ∈ o.receipt.fills, f ∉ request.priorFills →
    request.command.intent.validFrom ≤ f.occurredAt ∧
      f.occurredAt < request.command.intent.validUntil

/-- An immediate-or-cancel order with a bar in its window ends with the call. -/
def NeverRests (request : PaperExecutionRequest) (o : PaperExecutionOutcome) : Prop :=
  request.command.intent.timeInForce = .ioc → (∃ bar ∈ request.bars, request.InWindow bar) →
    o.receipt.status.Terminal

instance (request : PaperExecutionRequest) (o : PaperExecutionOutcome) :
    Decidable (FillsWhileValid request o) :=
  inferInstanceAs (Decidable (∀ f ∈ o.receipt.fills, _))

instance (request : PaperExecutionRequest) (o : PaperExecutionOutcome) :
    Decidable (NeverRests request o) :=
  inferInstanceAs (Decidable (_ → (∃ bar ∈ request.bars, request.InWindow bar) → _))

section

variable [Arithmetic]

/-- A bar that fills the order opens when the order is valid already. -/
def FillableOnceValid (policy : PaperExecutionPolicy) (request : PaperExecutionRequest) : Prop :=
  AvoidsRejection policy request → ∀ bar price, nextPrice request policy = some (bar, price) →
    request.command.intent.validFrom ≤ bar.opensAt

/-- A supported immediate-or-cancel order gets a price on the first bar in its window, or is looked
at after its end. -/
def PricedAtOnce (policy : PaperExecutionPolicy) (request : PaperExecutionRequest) : Prop :=
  request.command.intent.timeInForce = .ioc →
    request.command.intent.orderType ∈ policy.supportedOrderTypes →
    request.command.intent.timeInForce ∈ policy.supportedTimeInForce →
    ∀ bar, nextBar request = some bar → fillPrice request bar policy = none →
      request.command.intent.validUntil ≤ request.asOf

variable {policy : PaperExecutionPolicy} {request : PaperExecutionRequest}

theorem nextPrice_eq_none :
    nextPrice request policy = none ↔
      ∀ bar, nextBar request = some bar → fillPrice request bar policy = none := by
  unfold nextPrice
  cases hbar : nextBar request with
  | none => simp
  | some bar =>
      cases hprice : fillPrice request bar policy with
      | none => simp [hprice]
      | some price => simp [hprice]

omit [Arithmetic] in
theorem nextBar_isSome_iff :
    (∃ bar, nextBar request = some bar) ↔ ∃ bar ∈ request.bars, request.InWindow bar := by
  rw [nextBar_eq, ← Option.isSome_iff_exists, List.find?_isSome]
  simp

omit [Arithmetic] in
theorem fillStatus_cases (intent : OrderIntent) (cumulative : Decimal) :
    fillStatus intent cumulative = .filled ∨ fillStatus intent cumulative = .partiallyFilled := by
  unfold fillStatus
  split
  · exact .inl rfl
  · exact .inr rfl

variable [Hashing] {o : PaperExecutionOutcome}

/-! ## The start -/

theorem exists_fill_on (h : execute policy request = .success o)
    (hsupported : AvoidsRejection policy request) {bar : ExecutionBar} {price : Decimal}
    (htradable : nextPrice request policy = some (bar, price)) :
    ∃ f ∈ o.receipt.fills, f ∉ request.priorFills ∧ f.occurredAt = bar.opensAt := by
  obtain ⟨f, hf, hnew, -⟩ := exists_new_fill h hsupported htradable
  obtain ⟨latest, event, change, bar', price', quantity, step, -⟩ := new_fill_filledBy h hf hnew
  have hsame := step.tradable
  rw [htradable] at hsame
  cases hsame
  obtain ⟨rfl, -, -⟩ := fill_eq_success.mp step.built
  exact ⟨_, hf, hnew, rfl⟩

theorem fillsWhileValid_iff (h : execute policy request = .success o) :
    FillsWhileValid request o ↔ FillableOnceValid policy request := by
  constructor
  · intro hfills hsupported bar price htradable
    obtain ⟨f, hf, hnew, hat⟩ := exists_fill_on h hsupported htradable
    rw [← hat]
    exact (hfills f hf hnew).1
  · intro hbar f hf hnew
    obtain ⟨latest, event, change, bar, price, quantity, step, -⟩ := new_fill_filledBy h hf hnew
    obtain ⟨rfl, -, -⟩ := fill_eq_success.mp step.built
    have hfrom := hbar step.supported bar price step.tradable
    obtain ⟨hnext, -⟩ := nextPrice_eq_some step.tradable
    have hwindow : request.InWindow bar := by
      rw [nextBar_eq] at hnext
      simpa using List.find?_some hnext
    exact ⟨hfrom, hwindow.2.2⟩

/-! ## The rest -/

/-- A supported order without a price ends exactly when it is looked at after its end. -/
theorem unpriced_terminal_iff (hr : request.Valid)
    (htype : request.command.intent.orderType ∈ policy.supportedOrderTypes)
    (htime : request.command.intent.timeInForce ∈ policy.supportedTimeInForce)
    (hnone : nextPrice request policy = none) (h : execute policy request = .success o) :
    o.receipt.status.Terminal ↔ request.command.intent.validUntil ≤ request.asOf := by
  obtain ⟨_, -, h⟩ := Attempt.bind_eq_success.mp h
  rw [if_neg (not_not.mpr htype), if_neg (not_not.mpr htime)] at h
  obtain ⟨⟨events, latest⟩, hopened, h⟩ := Attempt.bind_eq_success.mp h
  simp only [hnone, pendingOrExpired] at h
  by_cases hopen : request.asOf < request.command.intent.validUntil
  · rw [if_pos hopen] at h
    obtain ⟨-, hreceipt, -, hevent, -⟩ := outcome_eq_success h
    rw [hreceipt.event_status, hevent]
    exact iff_of_false (openedEvents_not_terminal hr hopened) (not_le.mpr hopen)
  · rw [if_neg hopen] at h
    obtain ⟨event, happend, h⟩ := Attempt.bind_eq_success.mp h
    obtain ⟨change, hrelease, h⟩ := Attempt.bind_eq_success.mp h
    obtain ⟨-, hreceipt, -, hevent, -⟩ := outcome_eq_success h
    rw [hreceipt.event_status, hevent, appendOrderEvent_toStatus happend]
    exact iff_of_true (by decide) (not_lt.mp hopen)

/-- Whatever is not left without a price, an immediate-or-cancel order does not rest on. -/
theorem priced_terminal (hioc : request.command.intent.timeInForce = .ioc)
    (hpriced : AvoidsRejection policy request → nextPrice request policy ≠ none)
    (h : execute policy request = .success o) : o.receipt.status.Terminal := by
  obtain ⟨-, events, latest, fills, change, hexit, ho⟩ := execute_exit h
  obtain ⟨-, hreceipt, -, hevent, -⟩ := outcome_eq_success ho
  rw [hreceipt.event_status, hevent]
  cases hexit with
  | rejected refused appended released =>
      rw [appendOrderEvent_toStatus appended]
      decide
  | pending supported untradable opened => exact absurd untradable (hpriced supported)
  | expired supported untradable opened appended released =>
      exact absurd untradable (hpriced supported)
  | filled opened step rests =>
      have hstatus := appendOrderEvent_toStatus step.appended
      rcases fillStatus_cases request.command.intent _ with hfilled | hincomplete
      · rw [hstatus, hfilled]
        decide
      · exact absurd ⟨hioc, hstatus.trans hincomplete⟩ rests
  | cancelled opened step immediate incomplete appended surplus =>
      rw [appendOrderEvent_toStatus appended]
      decide

theorem neverRests_iff (hr : request.Valid) (h : execute policy request = .success o) :
    NeverRests request o ↔ PricedAtOnce policy request := by
  constructor
  · intro hrests hioc htype htime bar hbar hprice
    have hnone : nextPrice request policy = none :=
      nextPrice_eq_none.mpr fun other hother => by
        rw [hbar] at hother
        cases hother
        exact hprice
    exact (unpriced_terminal_iff hr htype htime hnone h).mp
      (hrests hioc (nextBar_isSome_iff.mp ⟨bar, hbar⟩))
  · intro hpriced hioc hexists
    obtain ⟨bar, hbar⟩ := nextBar_isSome_iff.mpr hexists
    by_cases hnone : AvoidsRejection policy request ∧ nextPrice request policy = none
    · obtain ⟨hsupported, hnone⟩ := hnone
      have hover := hpriced hioc hsupported.order_type hsupported.time_in_force bar hbar
        (nextPrice_eq_none.mp hnone bar hbar)
      exact (unpriced_terminal_iff hr hsupported.order_type hsupported.time_in_force hnone h).mpr
        hover
    · exact priced_terminal hioc (fun hs hn => hnone ⟨hs, hn⟩) h

/-- Fills keep to the validity window and an immediate-or-cancel order does not rest, exactly when
the bar that fills the order opens after the order became valid and an immediate-or-cancel order
gets a price on its first bar or is over. -/
theorem execute_keepsWindow_iff (policy : PaperExecutionPolicy) (request : PaperExecutionRequest)
    (o : PaperExecutionOutcome) (hr : request.Valid) (h : execute policy request = .success o) :
    (FillsWhileValid request o ∧ NeverRests request o) ↔
      (FillableOnceValid policy request ∧ PricedAtOnce policy request) :=
  and_congr (fillsWhileValid_iff h) (neverRests_iff hr h)

end

namespace Scenario

open scoped PythonArithmetic CodeHashing

theorem execute_keepsWindow_iff_crossed : ∃ o,
    execute policy (request {} {} [bar {}] 50) = .success o ∧
      ((FillsWhileValid (request {} {} [bar {}] 50) o ∧
          NeverRests (request {} {} [bar {}] 50) o) ↔
        (FillableOnceValid policy (request {} {} [bar {}] 50) ∧
          PricedAtOnce policy (request {} {} [bar {}] 50))) := by
  have hvalid : (request {} {} [bar {}] 50).Valid := by decide +kernel
  have hsuccess : (execute policy (request {} {} [bar {}] 50)).Succeeds := by decide +kernel
  exact hsuccess.imp fun o ho => ⟨ho, execute_keepsWindow_iff policy _ o hvalid ho⟩

/-- An order that becomes valid at 35, five ticks after its bar has opened. -/
def laterIntent : OrderIntent :=
  let s : Scenario := {}
  orderIntent (s.ident {} 2) 7 s.decision (s.reservation {}) s.target.portfolioSnapshotId 1 .buy
    .market 10 1 none none .day 35 1000 (toString (s.ident {} 3)) "paper-v1" 10

def earlyRequest : PaperExecutionRequest :=
  { request {} {} [bar {}] 50 with
    command := executionCommand (ident {} {} 4) laterIntent (decision {}) (reservation {} {}) 1 0 1
      "nonce" 20 }

def uncrossedRequest : PaperExecutionRequest :=
  request {} { orderType := .limit, limitPrice := some 90, timeInForce := .ioc } [bar {}] 50

/-- An order is filled before it is valid, and an immediate-or-cancel order rests. -/
theorem execute_ignores_window :
    earlyRequest.Valid ∧
    ((execute policy earlyRequest).SucceedsWith fun o => ¬ FillsWhileValid earlyRequest o) ∧
    uncrossedRequest.Valid ∧
    ((execute policy uncrossedRequest).SucceedsWith fun o =>
      ¬ NeverRests uncrossedRequest o) := by
  refine ⟨?_, ?_, ?_, ?_⟩ <;> decide +kernel

end Scenario

end StonksPaper
