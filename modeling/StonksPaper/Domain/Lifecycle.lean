import StonksPaper.Base.Run
import StonksPaper.Domain.ExecutionModel

/-!
# The life of a reservation

A reservation is created, and any calls follow, each on the result of the last that succeeded. The
events of the calls are one chain, and the amount is split into what was consumed, what was given
back and what remains as long as the context rounds none of the remainders.
-/

namespace StonksPaper

open Chain Quantum

/-- A call on a reservation. -/
inductive ReservationCall where
  | consume (amount : Decimal) (at_ : UTCDateTime)
  | release (at_ : UTCDateTime) (reason : String)
  | expire (at_ : UTCDateTime)

/-- A reservation and the events since its creation. -/
structure ReservationLife where
  reservation : AccountReservation
  events : List ReservationEvent

def eventTotal (types : List ReservationEventType) (events : List ReservationEvent) : Decimal :=
  ((events.filter (·.eventType ∈ types)).map (·.amount)).sum

namespace ReservationLife

variable (life : ReservationLife)

def totalConsumed : Decimal := eventTotal [.consumed] life.events

def totalReturned : Decimal := eventTotal [.released, .expired] life.events

end ReservationLife

theorem eventTotal_concat (types : List ReservationEventType) (events : List ReservationEvent)
    (e : ReservationEvent) :
    eventTotal types (events ++ [e]) =
      eventTotal types events + if e.eventType ∈ types then e.amount else 0 := by
  by_cases h : e.eventType ∈ types <;> simp [eventTotal, List.filter_append, h]

/-- The state of a valid reservation says how much of it remains. -/
theorem AccountReservation.Valid.state_iff {r : AccountReservation} (hr : r.Valid) :
    (r.state = .open_ ↔ r.remainingAmount = r.amount) ∧
      (r.state = .partiallyConsumed ↔ 0 < r.remainingAmount ∧ r.remainingAmount < r.amount) ∧
      (¬ r.state.Mutable ↔ r.remainingAmount = 0) := by
  have hpos := hr.amount_pos
  have hstate := hr.state_amount
  cases h : r.state with
  | open_ =>
      rw [h] at hstate
      have heq : r.remainingAmount = r.amount := hstate
      simp [ReservationState.Mutable, heq, hpos.ne']
  | partiallyConsumed =>
      rw [h] at hstate
      have hbetween : 0 < r.remainingAmount ∧ r.remainingAmount < r.amount := hstate
      simp [ReservationState.Mutable, hbetween, hbetween.2.ne, hbetween.1.ne']
  | consumed =>
      rw [h] at hstate
      have hzero : r.remainingAmount = 0 := hstate
      simp [ReservationState.Mutable, hzero, hpos.ne]
  | released =>
      rw [h] at hstate
      have hzero : r.remainingAmount = 0 := hstate
      simp [ReservationState.Mutable, hzero, hpos.ne]
  | expired =>
      rw [h] at hstate
      have hzero : r.remainingAmount = 0 := hstate
      simp [ReservationState.Mutable, hzero, hpos.ne]

section

variable [Arithmetic] [Hashing]

def ReservationCall.perform (reservation : AccountReservation) :
    ReservationCall → Call ReservationMutation
  | consume amount at_ => consumeReservation reservation amount at_
  | release at_ reason => releaseReservation reservation at_ reason
  | expire at_ => expireReservation reservation at_

/-- A call that fails leaves everything as it was. -/
def ReservationLife.step (life : ReservationLife) (call : ReservationCall) : ReservationLife :=
  match call.perform life.reservation with
  | .success m => ⟨m.reservation, life.events ++ [m.event]⟩
  | _ => life

/-- The context keeps the remainder that a consumption leaves as it is. -/
def ReservationCall.KeepsRemainder (reservation : AccountReservation) : ReservationCall → Prop
  | consume amount _ => kept (reservation.remainingAmount - amount) =
      reservation.remainingAmount - amount
  | release _ _ => True
  | expire _ => True

def ReservationMutation.born (m : ReservationMutation) : ReservationLife :=
    ⟨m.reservation, [m.event]⟩

/-! ## One call -/

/-- What a call that succeeds has moved. -/
structure Moved (r : AccountReservation) (m : ReservationMutation) : Prop where
  active : r.state.Mutable
  begun : m.reservation.state ≠ .open_
  valid : m.reservation.Valid
  continues : m.Continues r
  amount : m.reservation.amount = r.amount
  quantum : m.reservation.quantum = r.quantum
  expiry : m.reservation.expiresAt = r.expiresAt
  positive : 0 < m.event.amount
  quantized : IsQuantized m.event.amount r.quantum
  later : r.updatedAt ≤ m.event.occurredAt
  type : m.event.eventType ≠ .created
  before : m.event.eventType ≠ .expired → m.event.occurredAt < r.expiresAt
  after : m.event.eventType = .expired → r.expiresAt ≤ m.event.occurredAt

variable {r : AccountReservation} {call : ReservationCall} {m : ReservationMutation}

theorem ReservationCall.moved (hr : r.Valid) (h : call.perform r = .success m) : Moved r m := by
  cases call with
  | consume amount at_ =>
      have hvalid := AccountReservation.consume_valid hr h
      obtain ⟨⟨hstate, hlater, hbefore⟩, ⟨hpos, hquantized⟩, -, -, rfl⟩ :=
        (AccountReservation.consume_eq_success hr).mp h
      have hbegun : r.consumedState amount ≠ .open_ := by
        unfold AccountReservation.consumedState
        split_ifs <;> decide
      exact
        { active := hstate
          begun := hbegun
          valid := hvalid
          continues := AccountReservation.mutation_continues
          amount := rfl
          quantum := rfl
          expiry := rfl
          positive := hpos
          quantized := hquantized
          later := hlater
          type := nofun
          before := fun _ => hbefore
          after := fun htype => by cases htype }
  | release at_ reason =>
      have hvalid := AccountReservation.release_valid hr h
      obtain ⟨⟨hstate, hlater, hbefore⟩, -, rfl⟩ := (AccountReservation.release_eq_success hr).mp h
      exact
        { active := hstate
          begun := nofun
          valid := hvalid
          continues := AccountReservation.mutation_continues
          amount := rfl
          quantum := rfl
          expiry := rfl
          positive := hr.remaining_pos hstate
          quantized := hr.remaining_quantized
          later := hlater
          type := nofun
          before := fun _ => hbefore
          after := fun htype => by cases htype }
  | expire at_ =>
      have hvalid := AccountReservation.expire_valid hr h
      obtain ⟨hstate, ⟨hafter, hlater⟩, rfl⟩ := (AccountReservation.expire_eq_success hr).mp h
      exact
        { active := hstate
          begun := nofun
          valid := hvalid
          continues := AccountReservation.mutation_continues
          amount := rfl
          quantum := rfl
          expiry := rfl
          positive := hr.remaining_pos hstate
          quantized := hr.remaining_quantized
          later := hlater
          type := nofun
          before := fun htype => absurd rfl htype
          after := fun _ => hafter }

/-- What a call moves is what the remainder loses, where the context keeps the remainder. -/
theorem ReservationCall.balance (hr : r.Valid) (hkept : call.KeepsRemainder r)
    (h : call.perform r = .success m) :
    r.remainingAmount = m.event.amount + m.reservation.remainingAmount := by
  cases call with
  | consume amount at_ =>
      obtain ⟨-, -, -, -, rfl⟩ := (AccountReservation.consume_eq_success hr).mp h
      have hleft : kept (r.remainingAmount - amount) = r.remainingAmount - amount := hkept
      simp only [AccountReservation.mutation, reservationEvent, hleft]
      exact (add_sub_cancel amount r.remainingAmount).symm
  | release at_ reason =>
      obtain ⟨-, -, rfl⟩ := (AccountReservation.release_eq_success hr).mp h
      exact (add_zero _).symm
  | expire at_ =>
      obtain ⟨-, -, rfl⟩ := (AccountReservation.expire_eq_success hr).mp h
      exact (add_zero _).symm

/-! ## All calls -/

def ReservationLife.Conserved (opened : AccountReservation) (life : ReservationLife) : Prop :=
  opened.amount = life.totalConsumed + life.totalReturned + life.reservation.remainingAmount

/-- The books of a reservation, from its creation on. -/
structure ReservationLife.Sound (opened : AccountReservation) (life : ReservationLife) : Prop where
  valid : life.reservation.Valid
  amount : life.reservation.amount = opened.amount
  quantum : life.reservation.quantum = opened.quantum
  expiry : life.reservation.expiresAt = opened.expiresAt
  consumed_nonneg : 0 ≤ life.totalConsumed
  returned_nonneg : 0 ≤ life.totalReturned
  untouched : life.reservation.state = .open_ ↔ life.totalConsumed = 0 ∧ life.totalReturned = 0
  consumed_quantized : IsQuantized life.totalConsumed opened.quantum
  returned_quantized : IsQuantized life.totalReturned opened.quantum
  linked : Linked ReservationEvent.link 0 none life.events
  sequence : life.reservation.eventSequence = life.events.length
  head : headHash ReservationEvent.link none life.events = some life.reservation.eventHash
  ordered : life.events.Pairwise fun e e' => e.occurredAt ≤ e'.occurredAt
  latest : ∀ e ∈ life.events, e.occurredAt ≤ life.reservation.updatedAt
  timely : ∀ e ∈ life.events, if e.eventType = .expired then opened.expiresAt ≤ e.occurredAt
    else e.occurredAt < opened.expiresAt

namespace ReservationLife.Sound

variable {opened : AccountReservation} {life : ReservationLife}

omit [Arithmetic] [Hashing] in
theorem totals {m : ReservationMutation} (htype : m.event.eventType ≠ .created) :
    eventTotal [.consumed] (life.events ++ [m.event]) +
      eventTotal [.released, .expired] (life.events ++ [m.event]) =
        life.totalConsumed + life.totalReturned + m.event.amount := by
  rw [eventTotal_concat, eventTotal_concat, totalConsumed, totalReturned]
  cases heq : m.event.eventType with
  | created => exact absurd heq htype
  | consumed => simp; ring
  | released => simp; ring
  | expired => simp; ring

theorem step (hlife : life.Sound opened) (call : ReservationCall) :
    (life.step call).Sound opened := by
  cases h : call.perform life.reservation with
  | failure error => simpa only [ReservationLife.step, h] using hlife
  | raised error => simpa only [ReservationLife.step, h] using hlife
  | success m =>
      have hm := ReservationCall.moved hlife.valid h
      obtain ⟨hid, hsequence, hprevious, hmatches⟩ := hm.continues
      obtain ⟨-, hsequence', -, hhash, -, -, hupdated⟩ := hmatches
      have hquantized := hlife.quantum ▸ hm.quantized
      simp only [ReservationLife.step, h]
      have htotals : eventTotal [.consumed] (life.events ++ [m.event]) +
          eventTotal [.released, .expired] (life.events ++ [m.event]) =
            life.totalConsumed + life.totalReturned + m.event.amount := totals hm.type
      have hgrows (types : List ReservationEventType) (htotal : 0 ≤ eventTotal types life.events) :
          0 ≤ eventTotal types (life.events ++ [m.event]) := by
        rw [eventTotal_concat]
        split
        · exact add_nonneg htotal hm.positive.le
        · simpa using htotal
      have hstays (types : List ReservationEventType)
          (htotal : IsQuantized (eventTotal types life.events) opened.quantum) :
          IsQuantized (eventTotal types (life.events ++ [m.event])) opened.quantum := by
        rw [eventTotal_concat]
        split
        · exact htotal.add hquantized
        · simpa using htotal
      exact
        { valid := hm.valid
          amount := hm.amount.trans hlife.amount
          quantum := hm.quantum.trans hlife.quantum
          expiry := hm.expiry.trans hlife.expiry
          consumed_nonneg := hgrows _ hlife.consumed_nonneg
          returned_nonneg := hgrows _ hlife.returned_nonneg
          untouched := by
            refine iff_of_false hm.begun ?_
            rintro ⟨hconsumed, hreturned⟩
            have hpositive := hm.positive
            have hold := hlife.consumed_nonneg
            have hold' := hlife.returned_nonneg
            simp only [totalConsumed, totalReturned] at hconsumed hreturned htotals hold hold'
            linarith
          consumed_quantized := hstays _ hlife.consumed_quantized
          returned_quantized := hstays _ hlife.returned_quantized
          linked := by
            refine (linked_concat _).mpr ⟨hlife.linked, ?_, ?_⟩
            · rw [zero_add, ← hlife.sequence]
              exact hsequence
            · rw [hlife.head]
              exact hprevious
          sequence := by
            rw [List.length_append, List.length_singleton, ← hlife.sequence]
            exact hsequence'.trans hsequence
          head := by
            rw [headHash_concat, hhash]
            rfl
          ordered := by
            refine List.pairwise_append.mpr ⟨hlife.ordered, List.pairwise_singleton _ _, ?_⟩
            intro e he e' he'
            rw [List.mem_singleton.mp he']
            exact (hlife.latest e he).trans hm.later
          latest := by
            intro e he
            rw [hupdated]
            rcases List.mem_append.mp he with he | he
            · exact (hlife.latest e he).trans hm.later
            · rw [List.mem_singleton.mp he]
          timely := by
            intro e he
            rcases List.mem_append.mp he with he | he
            · exact hlife.timely e he
            · rw [List.mem_singleton.mp he, ← hlife.expiry]
              split
              · rename_i htype
                exact hm.after htype
              · rename_i htype
                exact hm.before htype }

/-- A call that rounds no remainder conserves the amount. -/
theorem step_conserved (hlife : life.Sound opened) (hconserved : life.Conserved opened)
    {call : ReservationCall}
    (hkept : (call.perform life.reservation).Succeeds → call.KeepsRemainder life.reservation) :
    (life.step call).Conserved opened := by
  cases h : call.perform life.reservation with
  | failure error => simpa only [ReservationLife.step, h] using hconserved
  | raised error => simpa only [ReservationLife.step, h] using hconserved
  | success m =>
      have hbalance := call.balance hlife.valid (hkept ⟨m, h⟩) h
      have htotals : eventTotal [.consumed] (life.events ++ [m.event]) +
          eventTotal [.released, .expired] (life.events ++ [m.event]) =
            life.totalConsumed + life.totalReturned + m.event.amount :=
        totals (ReservationCall.moved hlife.valid h).type
      simp only [ReservationLife.step, h, Conserved, totalConsumed, totalReturned]
        at hconserved htotals ⊢
      linarith

theorem run (hlife : life.Sound opened) (calls : List ReservationCall) :
    (Run.run ReservationLife.step life calls).Sound opened :=
  Run.invariant_run (fun _ call hsound => hsound.step call) hlife calls

theorem run_conserved (hlife : life.Sound opened) (hconserved : life.Conserved opened)
    {calls : List ReservationCall}
    (hkept : Run.Meets ReservationLife.step (fun life call =>
      (call.perform life.reservation).Succeeds → call.KeepsRemainder life.reservation) life calls) :
    (Run.run ReservationLife.step life calls).Conserved opened :=
  (hkept.invariant (I := fun life => life.Sound opened ∧ life.Conserved opened)
    (fun _ call hbooks hcall => ⟨hbooks.1.step call, hbooks.1.step_conserved hbooks.2 hcall⟩)
    ⟨hlife, hconserved⟩).2

end ReservationLife.Sound

/-! ## From the creation -/

section

variable {reservationId orderIntentId : UUID} {decision : RiskDecision} {kind : ReservationKind}
  {commodity : String} {amount quantum : Decimal} {instrumentId : Option UUID}
  {at_ expiresAt : UTCDateTime} {currentAccountSequence currentPortfolioSequence : ℕ}

omit [Arithmetic] in
theorem createReservation_sound {m : ReservationMutation}
    (h : createReservation reservationId orderIntentId decision kind commodity amount quantum
      instrumentId at_ expiresAt currentAccountSequence currentPortfolioSequence = .success m) :
    m.born.Sound m.reservation ∧ m.born.Conserved m.reservation := by
  simp only [createReservation, Attempt.bind_eq_success, failUnless_eq_success] at h
  obtain ⟨_, -, _, -, h⟩ := h
  cases htarget : decision.authorizedTargetHash with
  | none =>
      rw [htarget] at h
      cases h
  | some targetHash =>
      simp only [htarget, exceptValueError_eq_success, modelValidate_eq_success,
        Attempt.bind_eq_success] at h
      obtain ⟨_, -, _, hreservation, -, rfl⟩ := h
      have hvalid := AccountReservation.validate_iff.mp hreservation
      have hbefore := hvalid.expiry
      refine ⟨?_, ?_⟩
      · exact
        { valid := hvalid
          amount := rfl
          quantum := rfl
          expiry := rfl
          consumed_nonneg := le_rfl
          returned_nonneg := le_rfl
          untouched := iff_of_true rfl ⟨rfl, rfl⟩
          consumed_quantized := .zero hvalid.quantum_pos
          returned_quantized := .zero hvalid.quantum_pos
          linked := ⟨rfl, rfl, trivial⟩
          sequence := rfl
          head := rfl
          ordered := List.pairwise_singleton _ _
          latest := by
            intro e he
            rw [List.mem_singleton.mp he]
            exact le_rfl
          timely := by
            intro e he
            rw [List.mem_singleton.mp he]
            exact hbefore }
      · simp [ReservationLife.Conserved, ReservationLife.totalConsumed,
          ReservationLife.totalReturned,
          eventTotal, ReservationMutation.born, openingMutation, reservationEvent]

/-- What a reservation and its events show at any point of its life. -/
structure ReservationLife.Lawful (opened : AccountReservation) (life : ReservationLife) : Prop where
  nonneg : 0 ≤ life.totalConsumed ∧ 0 ≤ life.totalReturned ∧ 0 ≤ life.reservation.remainingAmount
  quantized : IsQuantized life.totalConsumed opened.quantum ∧
    IsQuantized life.totalReturned opened.quantum ∧
    IsQuantized life.reservation.remainingAmount opened.quantum
  untouched : life.reservation.state = .open_ ↔ life.totalConsumed = 0 ∧ life.totalReturned = 0
  begun : life.reservation.state = .partiallyConsumed ↔
    0 < life.reservation.remainingAmount ∧ life.reservation.remainingAmount < opened.amount
  ended : ¬ life.reservation.state.Mutable ↔ life.reservation.remainingAmount = 0
  final : ¬ life.reservation.state.Mutable → ∀ call : ReservationCall,
    ¬ (call.perform life.reservation).Succeeds
  linked : Linked ReservationEvent.link 0 none life.events
  sequence : life.reservation.eventSequence = life.events.length
  head : headHash ReservationEvent.link none life.events = some life.reservation.eventHash
  ordered : life.events.Pairwise fun e e' => e.occurredAt ≤ e'.occurredAt
  timely : ∀ e ∈ life.events, if e.eventType = .expired then opened.expiresAt ≤ e.occurredAt
    else e.occurredAt < opened.expiresAt

theorem ReservationLife.Sound.lawful {opened : AccountReservation} {life : ReservationLife}
    (h : life.Sound opened) : life.Lawful opened := by
  obtain ⟨-, hbegun, hended⟩ := h.valid.state_iff
  exact
    { nonneg := ⟨h.consumed_nonneg, h.returned_nonneg, h.valid.remaining_nonneg⟩
      quantized := ⟨h.consumed_quantized, h.returned_quantized,
        h.quantum ▸ h.valid.remaining_quantized⟩
      untouched := h.untouched
      begun := by rw [hbegun, h.amount]
      ended := hended
      final := fun hended call ⟨_, hm⟩ => hended (ReservationCall.moved h.valid hm).active
      linked := h.linked
      sequence := h.sequence
      head := h.head
      ordered := h.ordered
      timely := h.timely }

/-- Whatever calls follow its creation, a reservation stays lawful, and its amount is conserved as
long as no call leaves a remainder that the context rounds. -/
theorem reservation_run_lawful {m : ReservationMutation}
    (h : createReservation reservationId orderIntentId decision kind commodity amount quantum
      instrumentId at_ expiresAt currentAccountSequence currentPortfolioSequence = .success m)
    (calls : List ReservationCall) :
    (Run.run ReservationLife.step m.born calls).Lawful m.reservation ∧
      (Run.Meets ReservationLife.step (fun life call =>
          (call.perform life.reservation).Succeeds → call.KeepsRemainder life.reservation)
        m.born calls → (Run.run ReservationLife.step m.born calls).Conserved m.reservation) := by
  obtain ⟨hsound, hconserved⟩ := createReservation_sound h
  exact ⟨(hsound.run calls).lawful, fun hkept => hsound.run_conserved hconserved hkept⟩

end

end

section

open scoped PythonArithmetic CodeHashing

def Scenario.created : Call ReservationMutation :=
  createReservation 1011 2011 (Scenario.decision {}) .cash "USD" 2000 1 (some 1) 10 1000 0 0

theorem reservation_run_lawful_created : ∃ m, Scenario.created = .success m ∧
    (Run.run ReservationLife.step m.born [.consume 500 20, .expire 1000]).Lawful m.reservation ∧
    (Run.run ReservationLife.step m.born [.consume 500 20, .expire 1000]).Conserved
    m.reservation := by
  have hcreated : Scenario.created.SucceedsWith fun m =>
      m.reservation.remainingAmount = 2000 := by decide +kernel
  obtain ⟨m, hm, hremaining⟩ := hcreated
  obtain ⟨hlawful, hconserved⟩ := reservation_run_lawful hm [.consume 500 20, .expire 1000]
  refine ⟨m, hm, hlawful, hconserved ⟨fun _ => ?_, fun _ => trivial, trivial⟩⟩
  simp only [ReservationMutation.born, ReservationCall.KeepsRemainder, hremaining]
  decide +kernel

/-- A reservation released at once is no longer open, though nothing of it was consumed. -/
theorem released_reservation_not_open : ∃ m, Scenario.created = .success m ∧
    ∃ calls, ¬ ((Run.run ReservationLife.step m.born calls).reservation.state = .open_ ↔
      (Run.run ReservationLife.step m.born calls).totalConsumed = 0) := by
  have hcreated : Scenario.created.SucceedsWith fun m =>
      ¬ ((Run.run ReservationLife.step m.born [.release 20 "cancelled"]).reservation.state =
          .open_ ↔
        (Run.run ReservationLife.step m.born [.release 20 "cancelled"]).totalConsumed = 0) := by
    decide +kernel
  obtain ⟨m, hm, hreleased⟩ := hcreated
  exact ⟨m, hm, _, hreleased⟩

end

end StonksPaper
