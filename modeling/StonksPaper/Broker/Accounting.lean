import StonksPaper.Broker.Sizing
import StonksPaper.Broker.Exits

/-!
# Reservation accounting of the broker

Whatever exit an execution takes, the amount that was held, when it fits, is split exactly into what
is consumed, what is released and what still remains, and the mutations lead from the held
reservation to the final one.
-/

namespace StonksPaper

open Chain Quantum

section

variable [Arithmetic] [Hashing]

/-- The change splits what `before` holds and leads to a valid final reservation. -/
structure ReservationChange.Accounts (before : AccountReservation) (change : ReservationChange) :
    Prop where
  chain : MutationChain before change.mutations change.final
  total : before.remainingAmount =
    change.consumed + change.released + change.final.remainingAmount
  valid : change.final.Valid
  order : change.final.orderIntentId = before.orderIntentId
  consumed_nonneg : 0 ≤ change.consumed
  released_nonneg : 0 ≤ change.released

omit [Arithmetic] [Hashing] in
theorem ReservationChange.Accounts.final_last {before : AccountReservation}
    {change : ReservationChange} (hc : change.Accounts before) :
    ∀ last ∈ change.mutations.getLast?, last.reservation = change.final := by
  intro last hlast
  rw [← hc.chain.2, endState_of_getLast _ _ hlast]

variable {r : AccountReservation} {change change' : ReservationChange} {at_ : UTCDateTime}
  {reason : String}

omit [Arithmetic] in
theorem releaseRemaining_accounts (hr : r.Valid)
    (h : releaseRemaining r at_ reason = .success change) :
    change.Accounts r ∧ change.final.remainingAmount = 0 ∧ change.consumed = 0 := by
  obtain ⟨m, hm, h⟩ := Attempt.bind_eq_success.mp h
  cases h
  rw [orRaise_eq_success] at hm
  split at hm
  · obtain ⟨-, -, hmutation⟩ := (AccountReservation.expire_eq_success hr).mp hm
    have hvalid := AccountReservation.expire_valid hr hm
    subst hmutation
    exact ⟨⟨.single AccountReservation.mutation_continues, by simp [AccountReservation.mutation],
      hvalid, rfl, le_rfl, hr.remaining_nonneg⟩, rfl, rfl⟩
  · obtain ⟨-, -, hmutation⟩ := (AccountReservation.release_eq_success hr).mp hm
    have hvalid := AccountReservation.release_valid hr hm
    subst hmutation
    exact ⟨⟨.single AccountReservation.mutation_continues, by simp [AccountReservation.mutation],
      hvalid, rfl, le_rfl, hr.remaining_nonneg⟩, rfl, rfl⟩

omit [Arithmetic] in
theorem releaseSurplus_accounts {terminal : Prop} [Decidable terminal] (hc : change.Accounts r)
    (h : releaseSurplus change at_ terminal reason = .success change') :
    change'.Accounts r ∧ (terminal → change'.final.remainingAmount = 0) ∧
      (¬ terminal → change' = change) := by
  unfold releaseSurplus at h
  split at h
  · rename_i hterminal
    obtain ⟨extra, hextra, h⟩ := Attempt.bind_eq_success.mp h
    cases h
    obtain ⟨haccounts, hzero, hconsumed⟩ := releaseRemaining_accounts hc.valid hextra
    have hextraTotal := haccounts.total
    have htotal := hc.total
    refine ⟨⟨hc.chain.append haccounts.chain, ?_, haccounts.valid,
      haccounts.order.trans hc.order, hc.consumed_nonneg,
      add_nonneg hc.released_nonneg haccounts.released_nonneg⟩, fun _ => hzero,
      fun hn => absurd hterminal hn⟩
    simp only [hconsumed] at hextraTotal ⊢
    linarith
  · rename_i hterminal
    cases h
    exact ⟨hc, fun ht => absurd ht hterminal, fun _ => rfl⟩

theorem consume_accounts {amount : Decimal} {m : ReservationMutation} (hr : r.Valid)
    (hfits : Arithmetic.context.Fits r.quantum r.amount)
    (h : consumeReservation r amount at_ = .success m) :
    (⟨[m], m.reservation, amount, 0⟩ : ReservationChange).Accounts r := by
  have hvalid := AccountReservation.consume_valid hr h
  obtain ⟨-, hamount, hle, -, rfl⟩ := (AccountReservation.consume_eq_success hr).mp h
  have hremainder := AccountReservation.kept_remainder hr hfits hamount hle
  exact ⟨.single AccountReservation.mutation_continues,
    by simp [AccountReservation.mutation, hremainder], hvalid, rfl, hamount.1.le, le_rfl⟩

theorem reservationAfterFill_accounts {quantity price fee : Decimal} {terminal : Prop}
    [Decidable terminal] (hr : r.Valid) (hfits : Arithmetic.context.Fits r.quantum r.amount)
    (h : reservationAfterFill r quantity price fee at_ terminal = .success change) :
    change.Accounts r ∧ (terminal → change.final.remainingAmount = 0) ∧
      (¬ terminal → change.released = 0) := by
  obtain ⟨m, hm, h⟩ := Attempt.bind_eq_success.mp h
  rw [orRaise_eq_success] at hm
  obtain ⟨haccounts, hzero, hsame⟩ := releaseSurplus_accounts (consume_accounts hr hfits hm) h
  refine ⟨haccounts, fun hterminal => ?_, fun hterminal => ?_⟩
  · by_cases hpos : 0 < m.reservation.remainingAmount
    · exact hzero ⟨hterminal, hpos⟩
    · rw [hsame fun h => hpos h.2]
      exact le_antisymm (not_lt.mp hpos)
        (AccountReservation.consume_valid hr hm).remaining_nonneg
  · rw [hsame fun h => hterminal h.1]

variable {policy : PaperExecutionPolicy} {request : PaperExecutionRequest}
  {events : List OrderEvent} {latest : OrderEvent} {fills : List Fill}

theorem openedEvents_not_terminal (hr : request.Valid)
    (h : openedEvents request = .success (events, latest)) : ¬ latest.toStatus.Terminal := by
  unfold openedEvents at h
  cases hlast : request.priorEvents.getLast? with
  | some last =>
      simp only [hlast] at h
      cases h
      exact hr.not_terminal latest hlast
  | none =>
      simp only [hlast] at h
      obtain ⟨accepted, happend, h⟩ := Attempt.bind_eq_success.mp h
      cases h
      rw [appendOrderEvent_toStatus happend]
      decide

theorem Exit.accounts (hr : request.Valid)
    (hfits : Arithmetic.context.Fits request.reservation.quantum request.reservation.amount)
    (h : Exit policy request events latest fills change) :
    change.Accounts request.reservation ∧
      (latest.toStatus.Terminal → change.final.remainingAmount = 0) ∧
      (¬ latest.toStatus.Terminal → change.released = 0) := by
  have hrv := hr.reservation
  cases h with
  | rejected refused appended released =>
      obtain ⟨haccounts, hzero, -⟩ := releaseRemaining_accounts hrv released
      rw [appendOrderEvent_toStatus appended]
      exact ⟨haccounts, fun _ => hzero, fun hn => absurd (by decide) hn⟩
  | pending supported untradable opened =>
      have hopen := openedEvents_not_terminal hr opened
      exact ⟨⟨.nil _, by simp, hrv, rfl, le_rfl, le_rfl⟩, fun ht => absurd ht hopen, fun _ => rfl⟩
  | expired supported untradable opened appended released =>
      obtain ⟨haccounts, hzero, -⟩ := releaseRemaining_accounts hrv released
      rw [appendOrderEvent_toStatus appended]
      exact ⟨haccounts, fun _ => hzero, fun hn => absurd (by decide) hn⟩
  | filled opened step kept =>
      obtain ⟨haccounts, hzero, hkept⟩ := reservationAfterFill_accounts hrv hfits step.held
      have hstatus : latest.toStatus = .filled ∨ latest.toStatus = .partiallyFilled := by
        rw [appendOrderEvent_toStatus step.appended, fillStatus]
        split <;> simp
      refine ⟨haccounts, fun ht => ?_, fun ht => ?_⟩ <;> rcases hstatus with hs | hs
      · exact hzero hs
      · exact absurd (hs ▸ ht) (by decide)
      · exact absurd (by rw [hs]; decide) ht
      · exact hkept (by rw [hs]; decide)
  | cancelled opened step immediate incomplete appended surplus =>
      obtain ⟨haccounts, -, -⟩ := reservationAfterFill_accounts hrv hfits step.held
      obtain ⟨haccounts', hzero, -⟩ := releaseSurplus_accounts haccounts surplus
      rw [appendOrderEvent_toStatus appended]
      exact ⟨haccounts', fun _ => hzero trivial, fun hn => absurd (by decide) hn⟩

end

section

open scoped ExactArithmetic

variable [Hashing] {policy : PaperExecutionPolicy} {request : PaperExecutionRequest}

/-- Exact accounting: nothing of the held amount is lost or counted twice. -/
theorem execute_accounts {o : PaperExecutionOutcome} (hr : request.Valid)
    (h : execute policy request = .success o) :
    request.reservation.remainingAmount =
        o.reservationConsumed + o.reservationReleased + o.finalReservation.remainingAmount ∧
      MutationChain request.reservation o.reservationMutations o.finalReservation ∧
      (o.receipt.status.Terminal → o.finalReservation.remainingAmount = 0) ∧
      (¬ o.receipt.status.Terminal → o.reservationReleased = 0) := by
  obtain ⟨-, events, latest, fills, change, hexit, ho⟩ := execute_exit h
  obtain ⟨-, hreceipt, -, rfl, -, hmutations, hfinal, hconsumed, hreleased⟩ := outcome_eq_success ho
  obtain ⟨haccounts, hterminal, hlive⟩ := hexit.accounts hr Context.fits_exact
  rw [hmutations, hfinal, hconsumed, hreleased, hreceipt.event_status]
  exact ⟨haccounts.total, haccounts.chain, hterminal, hlive⟩

end

def Scenario.thinRequest [Hashing] : PaperExecutionRequest :=
  Scenario.request {} {} [{ Scenario.bar {} with volume := 10 }] 50

open scoped ExactArithmetic CodeHashing in
theorem execute_accounts_thin : ∃ o, execute Scenario.policy Scenario.thinRequest = .success o ∧
    Scenario.thinRequest.reservation.remainingAmount =
      o.reservationConsumed + o.reservationReleased + o.finalReservation.remainingAmount := by
  have hvalid : Scenario.thinRequest.Valid := by decide +kernel
  have hsuccess : (execute Scenario.policy Scenario.thinRequest).Succeeds := by decide +kernel
  exact hsuccess.imp fun o ho => ⟨ho, (execute_accounts hvalid ho).1⟩

end StonksPaper
