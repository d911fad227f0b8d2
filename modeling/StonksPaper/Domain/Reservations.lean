import StonksPaper.Domain.Risk

/-!
# Account reservations

`reservations.py`: a reservation holds cash or a position for one order. Each change is an event
that links to the previous one; `consumeReservation`, `releaseReservation` and `expireReservation`
are the only changes. The lemmas at the end say exactly when each of them succeeds on a valid
reservation and what it leaves.
-/

namespace StonksPaper

open Chain

inductive ReservationKind where
  | cash
  | position
deriving DecidableEq, Repr

inductive ReservationState where
  | open_
  | partiallyConsumed
  | consumed
  | released
  | expired
deriving DecidableEq, Repr

inductive ReservationEventType where
  | created
  | consumed
  | released
  | expired
deriving DecidableEq, Repr

instance : Dump ReservationKind := ⟨fun k => .int (k.ctorIdx : ℕ)⟩
instance : Dump ReservationState := ⟨fun s => .int (s.ctorIdx : ℕ)⟩
instance : Dump ReservationEventType := ⟨fun t => .int (t.ctorIdx : ℕ)⟩

/-- The states that `consume`, `release` and `expire` start from. -/
def ReservationState.Mutable (state : ReservationState) : Prop :=
  state = .open_ ∨ state = .partiallyConsumed

instance (state : ReservationState) : Decidable state.Mutable :=
  inferInstanceAs (Decidable (_ ∨ _))

structure AccountReservation where
  reservationId : UUID
  orderIntentId : UUID
  accountId : AccountId
  instrumentId : Option UUID
  kind : ReservationKind
  commodity : String
  amount : Decimal
  remainingAmount : Decimal
  quantum : Decimal
  riskDecisionId : UUID
  riskDecisionHash : Sha256
  portfolioTargetId : UUID
  authorizedTargetHash : Sha256
  riskAccountAggregateSequence : ℕ
  accountAggregateSequence : ℕ
  portfolioSequence : ℕ
  state : ReservationState
  createdAt : UTCDateTime
  updatedAt : UTCDateTime
  expiresAt : UTCDateTime
  eventSequence : ℕ
  previousEventHash : Option Sha256
  eventHash : Sha256
deriving DecidableEq

instance : Dump AccountReservation :=
  ⟨fun r => .record "AccountReservation"
    [dump r.reservationId, dump r.orderIntentId, dump r.accountId, dump r.instrumentId,
      dump r.kind, dump r.commodity, dump r.amount, dump r.remainingAmount, dump r.quantum,
      dump r.riskDecisionId, dump r.riskDecisionHash, dump r.portfolioTargetId,
      dump r.authorizedTargetHash, dump r.riskAccountAggregateSequence,
      dump r.accountAggregateSequence, dump r.portfolioSequence, dump r.state,
      dump r.createdAt, dump r.updatedAt, dump r.expiresAt, dump r.eventSequence,
      dump r.previousEventHash, dump r.eventHash]⟩

/-- `_validate_state_amount`. -/
def ReservationState.matchesAmount (state : ReservationState) (amount remaining : Decimal) : Prop :=
  match state with
  | .open_ => remaining = amount
  | .partiallyConsumed => 0 < remaining ∧ remaining < amount
  | .consumed => remaining = 0
  | .released => remaining = 0
  | .expired => remaining = 0

instance (state : ReservationState) (amount remaining : Decimal) :
    Decidable (state.matchesAmount amount remaining) := by
  cases state <;> unfold ReservationState.matchesAmount <;> infer_instance

def AccountReservation.validateExpiry (self : AccountReservation) : Call Unit :=
  if self.state = .expired then
    raiseUnless (self.expiresAt ≤ self.updatedAt) "expired reservation event cannot precede expiry"
  else
    raiseUnless (self.updatedAt < self.expiresAt) "non-expiry reservation event must precede expiry"

def AccountReservation.validate (self : AccountReservation) : Call Unit := do
  nonEmptyString self.accountId
  nonEmptyString self.commodity
  positiveDecimal self.amount
  positiveDecimal self.quantum
  atLeast 1 self.accountAggregateSequence
  atLeast 1 self.eventSequence
  raiseUnless (self.accountAggregateSequence = self.riskAccountAggregateSequence + 1)
    "reservation must advance account aggregate sequence once"
  raiseUnless (self.createdAt ≤ self.updatedAt) "reservation timeline is invalid"
  self.validateExpiry
  raiseUnless (IsQuantized self.amount self.quantum ∧ IsQuantized self.remainingAmount self.quantum)
    "reservation amounts must match commodity quantum"
  raiseUnless (0 ≤ self.remainingAmount ∧ self.remainingAmount ≤ self.amount)
    "reservation remaining amount is outside valid range"
  raiseUnless (self.state.matchesAmount self.amount self.remainingAmount)
    "reservation state does not match remaining amount"
  raiseUnless (self.eventSequence = 1 ↔ self.previousEventHash = none)
    "only genesis reservation event may omit previous hash"
  raiseUnless (self.kind = .position → self.instrumentId ≠ none)
    "position reservation requires an instrument"

/-- What the validator of a reservation guarantees. -/
structure AccountReservation.Valid (r : AccountReservation) : Prop where
  account_nonempty : r.accountId ≠ ""
  commodity_nonempty : r.commodity ≠ ""
  amount_pos : 0 < r.amount
  quantum_pos : 0 < r.quantum
  event_sequence_pos : 1 ≤ r.eventSequence
  sequence_advance : r.accountAggregateSequence = r.riskAccountAggregateSequence + 1
  timeline : r.createdAt ≤ r.updatedAt
  expiry : if r.state = .expired then r.expiresAt ≤ r.updatedAt
    else r.updatedAt < r.expiresAt
  amount_quantized : IsQuantized r.amount r.quantum
  remaining_quantized : IsQuantized r.remainingAmount r.quantum
  remaining_nonneg : 0 ≤ r.remainingAmount
  remaining_le : r.remainingAmount ≤ r.amount
  state_amount : r.state.matchesAmount r.amount r.remainingAmount
  genesis : r.eventSequence = 1 ↔ r.previousEventHash = none
  position_instrument : r.kind = .position → r.instrumentId ≠ none

theorem AccountReservation.validate_iff {self : AccountReservation} :
    self.validate = .success () ↔ self.Valid := by
  have hexpiry (u : Unit) : self.validateExpiry = .success u ↔
      if self.state = .expired then self.expiresAt ≤ self.updatedAt
        else self.updatedAt < self.expiresAt := by
    unfold validateExpiry
    split <;> simp
  constructor
  · intro h
    simp only [validate, Attempt.bind_eq_success, nonEmptyString_eq_success,
      positiveDecimal_eq_success, atLeast_eq_success, raiseUnless_eq_success, hexpiry] at h
    obtain ⟨_, h1, _, h2, _, h3, _, h4, _, -, _, h6, _, h7, _, h8, _, h9, _, h10, _, h11, _, h12,
      _, h13, h14⟩ := h
    exact ⟨h1, h2, h3, h4, h6, h7, h8, h9, h10.1, h10.2, h11.1, h11.2, h12, h13, h14⟩
  · intro h
    simp only [validate, Attempt.bind_eq_success, nonEmptyString_eq_success,
      positiveDecimal_eq_success, atLeast_eq_success, raiseUnless_eq_success, hexpiry]
    exact ⟨(), h.account_nonempty, (), h.commodity_nonempty, (), h.amount_pos, (), h.quantum_pos,
      (), by rw [h.sequence_advance]; omega, (), h.event_sequence_pos, (), h.sequence_advance, (),
      h.timeline, (), h.expiry, (), ⟨h.amount_quantized, h.remaining_quantized⟩, (),
      ⟨h.remaining_nonneg, h.remaining_le⟩, (), h.state_amount, (), h.genesis,
      h.position_instrument⟩

/-! ## Events and mutations -/

structure ReservationEvent where
  eventId : UUID
  reservationId : UUID
  sequence : ℕ
  eventType : ReservationEventType
  fromState : Option ReservationState
  toState : ReservationState
  amount : Decimal
  remainingAmount : Decimal
  occurredAt : UTCDateTime
  reason : String
  previousEventHash : Option Sha256
  eventHash : Sha256
deriving DecidableEq

def ReservationEvent.expectedEventHash [Hashing] (self : ReservationEvent) : Sha256 :=
  stablePayloadHash <| .record "ReservationEvent"
    [dump self.eventId, dump self.reservationId, dump self.sequence, dump self.eventType,
      dump self.fromState, dump self.toState, dump self.amount, dump self.remainingAmount,
      dump self.occurredAt, dump self.reason, dump self.previousEventHash]

def ReservationEvent.link : Link ReservationEvent Sha256 where
  sequence := (·.sequence)
  previous := (·.previousEventHash)
  hash := (·.eventHash)

/-- `Field(min_length=1, max_length=256)`. -/
def shortText (text : String) : Call Unit :=
  raiseUnless (1 ≤ text.length ∧ text.length ≤ 256) "String should have 1 to 256 characters"

@[simp] theorem shortText_eq_success {text : String} {u : Unit} :
    shortText text = .success u ↔ 1 ≤ text.length ∧ text.length ≤ 256 := raiseUnless_eq_success

def ReservationEvent.validate [Hashing] (self : ReservationEvent) : Call Unit := do
  atLeast 1 self.sequence
  positiveDecimal self.amount
  shortText self.reason
  raiseUnless (self.sequence = 1 ↔ self.previousEventHash = none)
    "only genesis reservation event may omit previous hash"
  raiseUnless (self.eventHash = self.expectedEventHash)
    "reservation event hash does not match payload"

structure ReservationMutation where
  reservation : AccountReservation
  event : ReservationEvent
deriving DecidableEq

instance : Dump ReservationEvent :=
  ⟨fun e => .record "ReservationEvent"
    [dump e.eventId, dump e.reservationId, dump e.sequence, dump e.eventType, dump e.fromState,
      dump e.toState, dump e.amount, dump e.remainingAmount, dump e.occurredAt, dump e.reason,
      dump e.previousEventHash, dump e.eventHash]⟩

instance : Dump ReservationMutation :=
  ⟨fun m => .record "ReservationMutation" [dump m.reservation, dump m.event]⟩

/-- The stored reservation shows its last event. -/
def ReservationMutation.Matches (self : ReservationMutation) : Prop :=
  self.reservation.reservationId = self.event.reservationId ∧
  self.reservation.eventSequence = self.event.sequence ∧
  self.reservation.previousEventHash = self.event.previousEventHash ∧
  self.reservation.eventHash = self.event.eventHash ∧
  self.reservation.state = self.event.toState ∧
  self.reservation.remainingAmount = self.event.remainingAmount ∧
  self.reservation.updatedAt = self.event.occurredAt

instance (self : ReservationMutation) : Decidable self.Matches :=
  inferInstanceAs (Decidable (_ ∧ _))

def ReservationMutation.validate (self : ReservationMutation) : Call Unit :=
  raiseUnless self.Matches "reservation projection does not match event"

/-! ## Chains of mutations -/

/-- The mutation's event continues the reservation's event chain. -/
def ReservationMutation.Continues (before : AccountReservation) (self : ReservationMutation) :
    Prop :=
  self.reservation.reservationId = before.reservationId ∧
  self.event.sequence = before.eventSequence + 1 ∧
  self.event.previousEventHash = some before.eventHash ∧
  self.Matches

instance (before : AccountReservation) (self : ReservationMutation) :
    Decidable (self.Continues before) := inferInstanceAs (Decidable (_ ∧ _))

/-- The mutations lead from one stored reservation to another, each continuing the last. -/
def MutationChain (before : AccountReservation) (mutations : List ReservationMutation)
    (after : AccountReservation) : Prop :=
  Traces (fun r m => m.Continues r) (·.reservation) before mutations ∧
    endState (·.reservation) before mutations = after

theorem MutationChain.nil (r : AccountReservation) : MutationChain r [] r := ⟨trivial, rfl⟩

theorem MutationChain.single {before : AccountReservation} {m : ReservationMutation}
    (h : m.Continues before) : MutationChain before [m] m.reservation := ⟨⟨h, trivial⟩, rfl⟩

theorem MutationChain.append {a b c : AccountReservation} {xs ys : List ReservationMutation}
    (hab : MutationChain a xs b) (hbc : MutationChain b ys c) : MutationChain a (xs ++ ys) c := by
  obtain ⟨hxs, rfl⟩ := hab
  exact ⟨(traces_append _ _).mpr ⟨hxs, hbc.1⟩, by rw [endState_append]; exact hbc.2⟩

section

variable [Hashing]

/-- The event that `_event` builds, before its validators run (`ReservationEvent.validate`). -/
def reservationEvent (reservationId : UUID) (sequence : ℕ) (eventType : ReservationEventType)
    (fromState : Option ReservationState) (toState : ReservationState)
    (amount remainingAmount : Decimal) (occurredAt : UTCDateTime) (reason : String)
    (previousEventHash : Option Sha256) : ReservationEvent :=
  let provisional : ReservationEvent :=
    { eventId := uuid5 (.record "reservation" [dump reservationId, dump sequence])
      reservationId, sequence, eventType, fromState, toState, amount, remainingAmount, occurredAt
      reason, previousEventHash
      eventHash := 0 }
  { provisional with eventHash := provisional.expectedEventHash }

/-- The mutation that `create_reservation` builds, before its validators run. -/
def openingMutation (reservationId orderIntentId : UUID) (decision : RiskDecision)
    (targetHash : Sha256) (kind : ReservationKind) (commodity : String) (amount quantum : Decimal)
    (instrumentId : Option UUID) (at_ expiresAt : UTCDateTime)
    (currentAccountSequence currentPortfolioSequence : ℕ) : ReservationMutation :=
  let event := reservationEvent reservationId 1 .created none .open_ amount amount at_
    "reservation_created" none
  { event
    reservation :=
      { reservationId, orderIntentId, instrumentId, kind, commodity, amount, quantum, expiresAt
        accountId := decision.accountId
        remainingAmount := amount
        riskDecisionId := decision.decisionId
        riskDecisionHash := decision.decisionHash
        portfolioTargetId := decision.portfolioTargetId
        authorizedTargetHash := targetHash
        riskAccountAggregateSequence := decision.accountAggregateSequence
        accountAggregateSequence := currentAccountSequence + 1
        portfolioSequence := currentPortfolioSequence
        state := .open_
        createdAt := at_
        updatedAt := at_
        eventSequence := 1
        previousEventHash := none
        eventHash := event.eventHash } }

def createReservation (reservationId orderIntentId : UUID) (decision : RiskDecision)
    (kind : ReservationKind) (commodity : String) (amount quantum : Decimal)
    (instrumentId : Option UUID) (at_ expiresAt : UTCDateTime)
    (currentAccountSequence currentPortfolioSequence : ℕ) : Call ReservationMutation := do
  failUnless (decision.isCurrent currentAccountSequence currentPortfolioSequence at_)
    .conflict "risk decision is stale or not approved"
  failUnless (expiresAt ≤ decision.expiresAt) .invalidInput
    "reservation cannot outlive risk decision"
  match decision.authorizedTargetHash with
  | none => fail .conflict "risk decision has no authorized target"
  | some targetHash =>
      let mutation := openingMutation reservationId orderIntentId decision targetHash kind commodity
        amount quantum instrumentId at_ expiresAt currentAccountSequence currentPortfolioSequence
      exceptValueError .invalidInput "reservation is invalid" do
        mutation.event.validate
        mutation.reservation.validate
        modelValidate ReservationMutation.validate mutation

/-- The mutation that `_mutate` builds, before its validators run. -/
def AccountReservation.mutation (reservation : AccountReservation)
    (eventType : ReservationEventType) (targetState : ReservationState)
    (amount remainingAmount : Decimal) (at_ : UTCDateTime) (reason : String) :
    ReservationMutation :=
  let event := reservationEvent reservation.reservationId (reservation.eventSequence + 1) eventType
    (some reservation.state) targetState amount remainingAmount at_ reason
    (some reservation.eventHash)
  { event
    reservation :=
      { reservation with
        state := targetState
        remainingAmount := remainingAmount
        updatedAt := at_
        eventSequence := event.sequence
        previousEventHash := event.previousEventHash
        eventHash := event.eventHash } }

/-- `_mutate`. The event is built outside the `try`. -/
def mutate (reservation : AccountReservation) (eventType : ReservationEventType)
    (targetState : ReservationState) (amount remainingAmount : Decimal) (at_ : UTCDateTime)
    (reason : String) : Call ReservationMutation := do
  let mutation := reservation.mutation eventType targetState amount remainingAmount at_ reason
  mutation.event.validate
  exceptValueError .conflict "reservation transition is invalid" do
    mutation.reservation.validate
    modelValidate ReservationMutation.validate mutation

def validateMutable (reservation : AccountReservation) (at_ : UTCDateTime) : Call Unit := do
  failUnless reservation.state.Mutable .conflict "reservation is already terminal"
  failUnless (reservation.updatedAt ≤ at_) .conflict "reservation event time moved backwards"
  failUnless (at_ < reservation.expiresAt) .conflict "reservation is expired"

def consumeReservation [Arithmetic] (reservation : AccountReservation) (amount : Decimal)
    (at_ : UTCDateTime) : Call ReservationMutation := do
  validateMutable reservation at_
  failUnless (0 < amount ∧ IsQuantized amount reservation.quantum) .invalidInput
    "consume amount is invalid"
  failUnless (amount ≤ reservation.remainingAmount) .conflict "consume amount exceeds reservation"
  let remaining := kept (reservation.remainingAmount - amount)
  let state : ReservationState := if remaining = 0 then .consumed else .partiallyConsumed
  mutate reservation .consumed state amount remaining at_ "reservation_consumed"

def releaseReservation (reservation : AccountReservation) (at_ : UTCDateTime) (reason : String) :
    Call ReservationMutation := do
  validateMutable reservation at_
  failUnless (¬ isBlank reason) .invalidInput "release reason is required"
  mutate reservation .released .released reservation.remainingAmount 0 at_ reason

def expireReservation (reservation : AccountReservation) (at_ : UTCDateTime) :
    Call ReservationMutation := do
  failUnless reservation.state.Mutable .conflict "reservation is already terminal"
  failUnless (reservation.expiresAt ≤ at_ ∧ reservation.updatedAt ≤ at_) .conflict
    "reservation is not eligible to expire"
  mutate reservation .expired .expired reservation.remainingAmount 0 at_ "reservation_expired"

/-! ## When a mutation succeeds -/

theorem reservationEvent_validate {reservationId : UUID} {sequence : ℕ}
    {eventType : ReservationEventType} {fromState : Option ReservationState}
    {toState : ReservationState} {amount remaining : Decimal} {at_ : UTCDateTime}
    {reason : String} {previous : Option Sha256} :
    (reservationEvent reservationId sequence eventType fromState toState amount remaining at_ reason
      previous).validate = .success () ↔
      1 ≤ sequence ∧ 0 < amount ∧ (1 ≤ reason.length ∧ reason.length ≤ 256) ∧
        (sequence = 1 ↔ previous = none) := by
  simp only [ReservationEvent.validate, Attempt.bind_eq_success, atLeast_eq_success,
    positiveDecimal_eq_success, shortText_eq_success, raiseUnless_eq_success]
  constructor
  · rintro ⟨_, h1, _, h2, _, h3, _, h4, -⟩
    exact ⟨h1, h2, h3, h4⟩
  · rintro ⟨h1, h2, h3, h4⟩
    exact ⟨(), h1, (), h2, (), h3, (), h4, rfl⟩

namespace AccountReservation

variable {r : AccountReservation} {m : ReservationMutation} {eventType : ReservationEventType}
  {state : ReservationState} {amount remaining : Decimal} {at_ : UTCDateTime} {reason : String}

theorem mutation_matches : (r.mutation eventType state amount remaining at_ reason).Matches :=
  ⟨rfl, rfl, rfl, rfl, rfl, rfl, rfl⟩

theorem mutation_continues :
    (r.mutation eventType state amount remaining at_ reason).Continues r :=
  ⟨rfl, rfl, rfl, mutation_matches⟩

theorem mutation_event_validate (hr : r.Valid) :
    (r.mutation eventType state amount remaining at_ reason).event.validate = .success () ↔
      0 < amount ∧ 1 ≤ reason.length ∧ reason.length ≤ 256 := by
  have hseq := hr.event_sequence_pos
  have hgenesis : r.eventSequence + 1 = 1 ↔ some r.eventHash = none := by
    constructor
    · intro h; omega
    · intro h; cases h
  simp only [mutation, reservationEvent_validate, hgenesis]
  constructor
  · rintro ⟨-, ha, hreason, -⟩
    exact ⟨ha, hreason⟩
  · rintro ⟨ha, hreason⟩
    exact ⟨by omega, ha, hreason, trivial⟩

theorem mutate_eq_success (hr : r.Valid) :
    mutate r eventType state amount remaining at_ reason = .success m ↔
      (0 < amount ∧ 1 ≤ reason.length ∧ reason.length ≤ 256) ∧ m.reservation.Valid ∧
        m = r.mutation eventType state amount remaining at_ reason := by
  simp only [mutate, Attempt.bind_eq_success, exceptValueError_eq_success,
    modelValidate_eq_success, mutation_event_validate hr, ReservationMutation.validate,
    raiseUnless_eq_success]
  constructor
  · rintro ⟨_, hevent, _, hvalid, -, rfl⟩
    exact ⟨hevent, validate_iff.mp hvalid, rfl⟩
  · rintro ⟨hevent, hvalid, rfl⟩
    exact ⟨(), hevent, (), validate_iff.mpr hvalid, mutation_matches, rfl⟩

omit [Hashing] in
theorem Valid.remaining_pos (hr : r.Valid) (hstate : r.state.Mutable) : 0 < r.remainingAmount := by
  have h := hr.state_amount
  rcases hstate with hs | hs <;> rw [hs] at h
  · exact h.symm ▸ hr.amount_pos
  · exact h.1

omit [Hashing] in
theorem validateMutable_eq_success {u : Unit} : validateMutable r at_ = .success u ↔
    r.state.Mutable ∧ r.updatedAt ≤ at_ ∧ at_ < r.expiresAt := by
  simp [validateMutable, Attempt.bind_eq_success]

/-- A mutation to the state that its amount calls for keeps the reservation valid. -/
theorem mutation_valid (hr : r.Valid) (hupdated : r.updatedAt ≤ at_)
    (hexpiry : if state = .expired then r.expiresAt ≤ at_ else at_ < r.expiresAt)
    (hquantized : IsQuantized remaining r.quantum) (hnonneg : 0 ≤ remaining)
    (hle : remaining ≤ r.amount) (hstate : state.matchesAmount r.amount remaining) :
    (r.mutation eventType state amount remaining at_ reason).reservation.Valid where
  account_nonempty := hr.account_nonempty
  commodity_nonempty := hr.commodity_nonempty
  amount_pos := hr.amount_pos
  quantum_pos := hr.quantum_pos
  event_sequence_pos := Nat.succ_pos _
  sequence_advance := hr.sequence_advance
  timeline := hr.timeline.trans hupdated
  expiry := hexpiry
  amount_quantized := hr.amount_quantized
  remaining_quantized := hquantized
  remaining_nonneg := hnonneg
  remaining_le := hle
  state_amount := hstate
  genesis := by
    have hseq := hr.event_sequence_pos
    constructor
    · intro h; exact absurd h (by simp [mutation, reservationEvent]; omega)
    · intro h; cases h
  position_instrument := hr.position_instrument

theorem mutate_valid (hr : r.Valid)
    (h : mutate r eventType state amount remaining at_ reason = .success m) :
    m.reservation.Valid := ((mutate_eq_success hr).mp h).2.1

theorem consume_valid [Arithmetic] (hr : r.Valid)
    (h : consumeReservation r amount at_ = .success m) : m.reservation.Valid := by
  simp only [consumeReservation, Attempt.bind_eq_success] at h
  obtain ⟨_, -, _, -, _, -, h⟩ := h
  exact mutate_valid hr h

theorem release_valid (hr : r.Valid) (h : releaseReservation r at_ reason = .success m) :
    m.reservation.Valid := by
  simp only [releaseReservation, Attempt.bind_eq_success] at h
  obtain ⟨_, -, _, -, h⟩ := h
  exact mutate_valid hr h

theorem expire_valid (hr : r.Valid) (h : expireReservation r at_ = .success m) :
    m.reservation.Valid := by
  simp only [expireReservation, Attempt.bind_eq_success] at h
  obtain ⟨_, -, _, -, h⟩ := h
  exact mutate_valid hr h

/-- The state a reservation has once `amount` of it is consumed. -/
def consumedState (r : AccountReservation) (amount : Decimal) : ReservationState :=
  if r.remainingAmount - amount = 0 then .consumed else .partiallyConsumed

def Leaves (r : AccountReservation) (remaining : Decimal) : Prop :=
  IsQuantized remaining r.quantum ∧ (remaining = 0 ∨ remaining < r.amount)

section

variable [Arithmetic]

omit [Hashing] in
theorem leaves_of_kept (hr : r.Valid) (hamount : 0 < amount ∧ IsQuantized amount r.quantum)
    (hkept : kept (r.remainingAmount - amount) = r.remainingAmount - amount) :
    r.Leaves (kept (r.remainingAmount - amount)) := by
  have hremaining := hr.remaining_le
  rw [hkept]
  exact ⟨hr.remaining_quantized.sub hamount.2, .inr (by linarith [hamount.1])⟩

omit [Hashing] in
theorem kept_remainder (hr : r.Valid) (hfits : Arithmetic.context.Fits r.quantum r.amount)
    (hamount : 0 < amount ∧ IsQuantized amount r.quantum) (hle : amount ≤ r.remainingAmount) :
    kept (r.remainingAmount - amount) = r.remainingAmount - amount := by
  have hremaining := hr.remaining_le
  refine hfits.round_eq (hr.remaining_quantized.sub hamount.2) ?_
  rw [abs_of_nonneg (sub_nonneg.mpr hle)]
  linarith [hamount.1]

theorem consume_eq_success (hr : r.Valid) :
    consumeReservation r amount at_ = .success m ↔
      (r.state.Mutable ∧ r.updatedAt ≤ at_ ∧ at_ < r.expiresAt) ∧
        (0 < amount ∧ IsQuantized amount r.quantum) ∧ amount ≤ r.remainingAmount ∧
        r.Leaves (kept (r.remainingAmount - amount)) ∧
        m = r.mutation .consumed (r.consumedState amount) amount
          (kept (r.remainingAmount - amount)) at_ "reservation_consumed" := by
  have hstate : (if kept (r.remainingAmount - amount) = 0 then ReservationState.consumed
      else .partiallyConsumed) = r.consumedState amount := by
    simp only [kept_eq_zero, consumedState]
  simp only [consumeReservation, Attempt.bind_eq_success, validateMutable_eq_success,
    failUnless_eq_success, mutate_eq_success hr, hstate]
  constructor
  · rintro ⟨_, hmutable, _, hamount, _, hle, -, hvalid, rfl⟩
    refine ⟨hmutable, hamount, hle, ⟨hvalid.remaining_quantized, ?_⟩, rfl⟩
    have hamounts := hvalid.state_amount
    simp only [mutation, consumedState] at hamounts
    by_cases hnone : r.remainingAmount - amount = 0
    · exact .inl (kept_eq_zero.mpr hnone)
    · rw [if_neg hnone] at hamounts
      exact .inr hamounts.2
  · rintro ⟨hmutable, hamount, hle, ⟨hquantized, hleft⟩, rfl⟩
    refine ⟨(), hmutable, (), hamount, (), hle, ⟨hamount.1, by decide, by decide⟩, ?_, rfl⟩
    have hnonneg : 0 ≤ kept (r.remainingAmount - amount) := kept_nonneg_iff.mpr (sub_nonneg.mpr hle)
    have hbounded : kept (r.remainingAmount - amount) ≤ r.amount := by
      rcases hleft with hzero | hlt
      · rw [hzero]
        exact hr.amount_pos.le
      · exact hlt.le
    refine mutation_valid hr hmutable.2.1 ?_ hquantized hnonneg hbounded ?_ <;> unfold consumedState
    · rw [if_neg (by split_ifs <;> decide)]
      exact hmutable.2.2
    · split_ifs with h0
      · exact kept_eq_zero.mpr h0
      · have hne : kept (r.remainingAmount - amount) ≠ 0 := mt kept_eq_zero.mp h0
        exact ⟨lt_of_le_of_ne hnonneg hne.symm, hleft.resolve_left hne⟩

end

theorem release_eq_success (hr : r.Valid) :
    releaseReservation r at_ reason = .success m ↔
      (r.state.Mutable ∧ r.updatedAt ≤ at_ ∧ at_ < r.expiresAt) ∧
        (isBlank reason = false ∧ reason.length ≤ 256) ∧
        m = r.mutation .released .released r.remainingAmount 0 at_ reason := by
  have hlength : isBlank reason = false → 1 ≤ reason.length := by
    intro h
    by_contra h0
    have : reason.toList = [] := by
      rw [← List.length_eq_zero_iff, String.length_toList]; omega
    simp [isBlank, this] at h
  simp only [releaseReservation, Attempt.bind_eq_success, validateMutable_eq_success,
    failUnless_eq_success, mutate_eq_success hr, Bool.not_eq_true]
  constructor
  · rintro ⟨_, hmutable, _, hblank, ⟨-, -, hshort⟩, -, rfl⟩
    exact ⟨hmutable, ⟨hblank, hshort⟩, rfl⟩
  · rintro ⟨hmutable, ⟨hblank, hshort⟩, rfl⟩
    refine ⟨(), hmutable, (), hblank,
      ⟨hr.remaining_pos hmutable.1, hlength hblank, hshort⟩, ?_, rfl⟩
    exact mutation_valid hr hmutable.2.1 hmutable.2.2 (.zero hr.quantum_pos) le_rfl hr.amount_pos.le
      rfl

theorem expire_eq_success (hr : r.Valid) :
    expireReservation r at_ = .success m ↔
      r.state.Mutable ∧ (r.expiresAt ≤ at_ ∧ r.updatedAt ≤ at_) ∧
        m = r.mutation .expired .expired r.remainingAmount 0 at_ "reservation_expired" := by
  simp only [expireReservation, Attempt.bind_eq_success, failUnless_eq_success,
    mutate_eq_success hr]
  constructor
  · rintro ⟨_, hmutable, _, hdue, -, -, rfl⟩
    exact ⟨hmutable, hdue, rfl⟩
  · rintro ⟨hmutable, hdue, rfl⟩
    refine ⟨(), hmutable, (), hdue, ⟨hr.remaining_pos hmutable, by decide, by decide⟩, ?_, rfl⟩
    exact mutation_valid hr hdue.2 hdue.1 (.zero hr.quantum_pos) le_rfl hr.amount_pos.le rfl

end AccountReservation

end

end StonksPaper
