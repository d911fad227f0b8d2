import StonksPaper.Runs.Orders

/-!
# Orders that are left in progress

A receipt is stored under the order's idempotency key with the first outcome, whatever its status.
Every later call finds it, so an order that was only accepted or partially filled stays that way.
-/

namespace StonksPaper

open Chain
open scoped ExactArithmetic

section

variable [Hashing] {s : Store}

omit [Hashing] in
theorem receiptFor_ne_none {accountId : AccountId} {key : String}
    (h : ∃ r ∈ s.receipts, r.accountId = accountId ∧ r.idempotencyKey = key) :
    s.receiptFor accountId key ≠ none := by
  obtain ⟨r, hr, hkey⟩ := h
  intro hnone
  exact absurd (List.find?_eq_none.mp hnone r hr) (by simpa using hkey)

/-- A call for an order that has a receipt changes no table of the trading tables. -/
theorem executeReferencePaper_of_receipt (lookup : Store) (policy : PaperExecutionPolicy)
    (ledgerPolicy : LedgerPostingPolicy) {request : PaperExecutionRequest} (commits : Commits)
    (now : UTCDateTime)
    (h : ∃ r ∈ s.receipts, r.accountId = request.command.intent.accountId ∧
      r.idempotencyKey = request.command.intent.idempotencyKey) :
    SameTrading s
      (s.executeReferencePaper lookup policy ledgerPolicy request commits now).2 := by
  unfold Store.executeReferencePaper
  split
  · rename_i record executed hexecuted
    rcases executeOnce_eq_success hexecuted with ⟨rfl, -, -⟩ | ⟨-, _, _, _, _, _, _, _, hfresh⟩
    · simp [SameTrading.refl]
    · exact absurd hfresh.missing (receiptFor_ne_none h)
  · exact .refl s
  · exact operated_accountingMismatch.same
  · exact .refl s

/-- What the rows that a reservation is taken from hold in reserve. -/
def Store.reservedFor (s : Store) (r : AccountReservation) : Decimal :=
  match r.kind with
  | .cash =>
      (((s.cashOf r.accountId).filter (·.currency = r.commodity)).map (·.reservedAmount)).sum
  | .position =>
      (((s.positionsOf r.accountId).filter (some ·.instrumentId = r.instrumentId)).map
        (·.reservedQuantity)).sum

/-- Some call from the end of the order's validity on succeeds, ends the order, and gives back all
that is held for it. -/
def CanFinish (w : World) (i : OrderIntent) : Prop :=
  ∃ age policy ledgerPolicy request commits now record s',
    request.command.intent = i ∧ i.validUntil ≤ request.asOf ∧
    w.store.executeReferencePaper (w.view age) policy ledgerPolicy request commits now =
      (.success record, s') ∧
    (∃ e ∈ (s'.orderEventsOf i.intentId).getLast?, e.toStatus.Terminal) ∧
    ∀ held, w.store.reservation i.reservationId = some held →
      (∀ r, s'.reservation i.reservationId = some r → r.remainingAmount = 0) ∧
        s'.reservedFor held = w.store.reservedFor held - held.remainingAmount

theorem not_canFinish_of_receipt {w : World} {i : OrderIntent} (hprogress : InProgress w.store i)
    (h : ∃ r ∈ w.store.receipts, r.accountId = i.accountId ∧
      r.idempotencyKey = i.idempotencyKey) : ¬ CanFinish w i := by
  rintro ⟨age, policy, ledgerPolicy, request, commits, now, record, s', rfl, -, hcall, hended, -⟩
  have hsame := executeReferencePaper_of_receipt (w.view age) policy ledgerPolicy commits now h
  rw [hcall] at hsame
  obtain ⟨e, he, hterminal⟩ := hended
  obtain ⟨d, hd, hlive⟩ := hprogress
  rw [orderEventsOf_of_eq hsame.orders.2.1] at he
  have heq : d = e := Option.some.inj (hd.symm.trans he)
  exact hlive (heq ▸ hterminal)

/-- No order in progress can be finished by an execution call, in any run. -/
theorem not_canFinish_reached {at_ : UTCDateTime} {ops : List Timed} {i : OrderIntent}
    (hcalls : ∀ op ∈ ops, op.1.IsCall) (hi : i ∈ (World.reached at_ ops).store.intents)
    (hprogress : InProgress (World.reached at_ ops).store i) :
    ¬ CanFinish (World.reached at_ ops) i :=
  not_canFinish_of_receipt hprogress (receipted_reached hcalls i hi hprogress)

end

/-! ## An order that is accepted and stays accepted -/

section

open scoped CodeHashing

theorem accepted_inProgress :
    InProgress (World.reached 0 (Scenario.accepted {} {})).store (Scenario.intent {} {}) ∧
      Scenario.intent {} {} ∈ (World.reached 0 (Scenario.accepted {} {})).store.intents ∧
      (World.reached 0 (Scenario.accepted {} {})).store.GlobalEnabled ∧
      (World.reached 0 (Scenario.accepted {} {})).store.AccountEnabled "paper" := by
  decide +kernel

theorem accepted_calls : ∀ op ∈ Scenario.accepted {} {}, op.1.IsCall := by
  simp [Scenario.accepted, Scenario.opened, Scenario.authorised, Scenario.call, Operation.IsCall]

theorem not_canFinish_accepted :
    ¬ CanFinish (World.reached 0 (Scenario.accepted {} {})) (Scenario.intent {} {}) :=
  not_canFinish_reached accepted_calls accepted_inProgress.2.1 accepted_inProgress.1

/-- An order that was accepted is in progress while no switch is active, and cannot be finished. -/
theorem not_every_order_canFinish :
    ¬ ∀ (at_ : UTCDateTime) (ops : List Timed), (∀ op ∈ ops, op.1.IsCall) →
      ∀ i ∈ (World.reached at_ ops).store.intents, InProgress (World.reached at_ ops).store i →
        (World.reached at_ ops).store.GlobalEnabled →
        (World.reached at_ ops).store.AccountEnabled i.accountId →
        CanFinish (World.reached at_ ops) i := by
  intro h
  obtain ⟨hprogress, hi, hglobal, haccount⟩ := accepted_inProgress
  have hstuck := not_canFinish_of_receipt hprogress
    (receipted_reached accepted_calls (Scenario.intent {} {}) hi hprogress)
  exact hstuck (h 0 (Scenario.accepted {} {}) accepted_calls (Scenario.intent {} {}) hi hprogress
    hglobal haccount)

end

end StonksPaper
