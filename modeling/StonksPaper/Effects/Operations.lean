import StonksPaper.Effects.Ledger
import StonksPaper.Store.Operations

/-!
# What an operator action writes

An activation moves one switch and cancels the pending orders it covers one after the other; every
other action moves a switch at most and adds an entry to the audit chain.
-/

namespace StonksPaper

open Chain
open scoped ExactArithmetic

section

variable [Hashing] {s s' : Store}

/-! ## One cancelled order -/

/-- What cancelling one pending order had checked, and the store it left. -/
structure OrderCancelled (s : Store) (intent : OrderIntent) (at_ : UTCDateTime)
    (before : AccountReservation) (changed : ReservationMutation) (created : OrderEvent)
    (s' : Store) : Prop where
  order_valid : intent.validate = .success ()
  linked : Linked OrderEvent.link 0 none (s.orderEventsOf intent.intentId)
  pending : ¬ ((s.orderEventsOf intent.intentId).getLast?.elim OrderStatus.created
    (·.toStatus)).Terminal
  appended : appendOrderEvent intent (s.orderEventsOf intent.intentId).getLast?
    (cancelStatus intent at_)
    ((s.orderEventsOf intent.intentId).getLast?.elim 0 (·.cumulativeFilledQuantity)) at_
    "paper_kill_switch_activated" = .success created
  reserved : s.reservation intent.reservationId = some before
  before_valid : before.validate = .success ()
  mutable : before.state.Mutable
  released : pendingMutation before at_ = .success changed
  admitted : s.AdmitsReservationEvent changed.event
  releasable : Releasable s before before.remainingAmount
  event_admitted : s.AdmitsOrderEvent created
  state : s' = { (s.mutated before changed.reservation [changed]).givenBack before
      before.remainingAmount with
    orderEvents := s.orderEvents ++ [created] }

theorem releasePending_eq_success {intent : OrderIntent} {at_ : UTCDateTime}
    (h : s.releasePending intent at_ = .success s') :
    ∃ before changed, s.reservation intent.reservationId = some before ∧
      before.validate = .success () ∧ before.state.Mutable ∧
      pendingMutation before at_ = .success changed ∧ s.AdmitsReservationEvent changed.event ∧
      Releasable s before before.remainingAmount ∧
      s' = (s.mutated before changed.reservation [changed]).givenBack before
        before.remainingAmount := by
  simp only [Store.releasePending, Attempt.bind_eq_success, orFail_eq_success,
    integrityChecked_eq_success, failUnless_eq_success, Store.insertReservationEvent,
    Store.updateReservation, write_eq_success] at h
  obtain ⟨before, hbefore, _, hvalid, _, hmutable, changed, hchanged, s₁, ⟨hadmits, rfl⟩, s₂,
    ⟨-, rfl⟩, h⟩ := h
  obtain ⟨hreleasable, rfl⟩ := releaseReserved_eq_success h
  exact ⟨before, changed, hbefore, hvalid, hmutable, hchanged, hadmits, hreleasable, rfl⟩

/-- A round of the loop leaves a terminal order alone, and cancels one that is not. -/
theorem cancelPending_eq_success {at_ : UTCDateTime} {cancelled cancelled' : List UUID}
    {intent : OrderIntent}
    (h : cancelPending at_ (cancelled, s) intent = .success (cancelled', s')) :
    (s' = s ∧ cancelled' = cancelled ∧
      ((s.orderEventsOf intent.intentId).getLast?.elim OrderStatus.created
        (·.toStatus)).Terminal) ∨
    cancelled' = cancelled ++ [intent.intentId] ∧
      ∃ before changed created, OrderCancelled s intent at_ before changed created s' := by
  simp only [cancelPending, Attempt.bind_eq_success, integrityChecked_eq_success] at h
  obtain ⟨_, hvalid, events, hevents, h⟩ := h
  simp only [Store.pendingEvents, Attempt.bind_eq_success, failUnless_eq_success,
    Attempt.pure_eq] at hevents
  obtain ⟨_, -, _, hlinked, hevents⟩ := hevents
  cases hevents
  split at h
  · rename_i hterminal
    cases h
    exact .inl ⟨rfl, rfl, hterminal⟩
  · rename_i hpending
    simp only [Store.cancelOrder, Attempt.bind_eq_success, Attempt.pure_eq] at h
    obtain ⟨s₁, ⟨created, happend, s₂, hrelease, hinsert⟩, h⟩ := h
    cases h
    obtain ⟨before, changed, hbefore, hbeforeValid, hmutable, hchanged, hadmits, hreleasable,
      rfl⟩ :=
      releasePending_eq_success hrelease
    obtain ⟨hevent, rfl⟩ := write_eq_success.mp hinsert
    refine .inr ⟨rfl, before, changed, created, ?_⟩
    exact
      { order_valid := hvalid
        linked := hlinked
        pending := hpending
        appended := happend
        reserved := hbefore
        before_valid := hbeforeValid
        mutable := hmutable
        released := hchanged
        admitted := hadmits
        releasable := hreleasable
        event_admitted := hevent
        state := rfl }

/-! ## The switches -/

/-- At most one statement on the switches: a row is replaced under its identity, or added for an
account that has none. -/
inductive SwitchesMoved (rows : List PaperKillSwitchState) : List PaperKillSwitchState → Prop where
  | kept : SwitchesMoved rows rows
  | updated {old new : PaperKillSwitchState} (stored : old ∈ rows)
      (same : new.switchId = old.switchId ∧ new.scope = old.scope ∧ new.accountId = old.accountId) :
      SwitchesMoved rows (Table.update (·.switchId = old.switchId) (fun _ => new) rows)
  | inserted {w : PaperKillSwitchState} (fresh : Table.Fresh (·.switchId) w.switchId rows)
      (account_fresh : Table.Fresh (·.accountId) w.accountId rows)
      (scope : w.scope = .global ↔ w.accountId = none) : SwitchesMoved rows (rows ++ [w])

omit [Hashing] in
theorem switchesMoved_updateSwitch {old new : PaperKillSwitchState} (hold : old ∈ s.switches)
    (h : s.updateSwitch old new = .success s') : SwitchesMoved s.switches s'.switches := by
  obtain ⟨⟨hid, hscope, haccount, -⟩, rfl⟩ := write_eq_success.mp h
  exact .updated hold ⟨hid, hscope, haccount⟩

omit [Hashing] in
theorem switchesMoved_insertSwitch {w : PaperKillSwitchState}
    (h : s.insertSwitch w = .success s') : SwitchesMoved s.switches s'.switches := by
  obtain ⟨⟨hfresh, hscoped, haccount, -⟩, rfl⟩ := write_eq_success.mp h
  exact .inserted hfresh haccount hscoped

omit [Hashing] in
theorem switchRow_eq_success {scope : KillSwitchScope} {accountId : Option AccountId}
    {row : PaperKillSwitchState} (h : s.switchRow scope accountId = .success row) :
    (scope = .global ↔ accountId = none) ∧ s.switch scope accountId = [row] := by
  simp only [Store.switchRow, Attempt.bind_eq_success, failUnless_eq_success] at h
  obtain ⟨_, hscope, h⟩ := h
  split at h
  · rename_i row' hrow
    cases h
    exact ⟨hscope, hrow⟩
  · cases h
  · cases h

omit [Hashing] in
theorem mem_of_switch {scope : KillSwitchScope} {accountId : Option AccountId}
    {row : PaperKillSwitchState} {rows : List PaperKillSwitchState}
    (h : s.switch scope accountId = row :: rows) : row ∈ s.switches :=
  List.mem_of_mem_filter (h ▸ List.mem_cons_self .. : row ∈ s.switch scope accountId)

/-! ## The audit chain -/

def SameTrading (s s' : Store) : Prop :=
  s' = { s with switches := s'.switches, actions := s'.actions, auditHead := s'.auditHead }

omit [Hashing] in
theorem SameTrading.refl (s : Store) : SameTrading s s := rfl

omit [Hashing] in
theorem SameTrading.trans {s t u : Store} (h : SameTrading s t) (h' : SameTrading t u) :
    SameTrading s u := by
  unfold SameTrading at *
  rw [h', h]

omit [Hashing] in
theorem sameTrading_updateSwitch {old new : PaperKillSwitchState}
    (h : s.updateSwitch old new = .success s') : SameTrading s s' := by
  obtain ⟨-, rfl⟩ := write_eq_success.mp h
  rfl

omit [Hashing] in
theorem sameTrading_insertSwitch {w : PaperKillSwitchState}
    (h : s.insertSwitch w = .success s') : SameTrading s s' := by
  obtain ⟨-, rfl⟩ := write_eq_success.mp h
  rfl

theorem sameTrading_appendAction {actionId : UUID} {actionType : OperatorActionType}
    {scope : KillSwitchScope} {accountId : Option AccountId} {actor reasonCode : String}
    {switchVersion : ℕ} {cancelled : List UUID} {hashes : List Sha256} {reasons : List String}
    {now : UTCDateTime} {action : PaperOperatorAction}
    (h : s.appendAction actionId actionType scope accountId actor reasonCode switchVersion cancelled
      hashes reasons now = .success (action, s')) :
    SameTrading s s' ∧ s'.switches = s.switches := by
  simp only [Store.appendAction, Attempt.bind_eq_success, Store.insertAction,
    Store.updateAuditHead, write_eq_success, Attempt.pure_eq] at h
  obtain ⟨_, -, s₁, ⟨-, rfl⟩, s₂, ⟨-, rfl⟩, h⟩ := h
  cases h
  exact ⟨rfl, rfl⟩

omit [Hashing] in
theorem activateRow_eq_success {a : Activation} {row active : PaperKillSwitchState}
    {now : UTCDateTime} (h : s.activateRow a row now = .success (active, s')) :
    active = row.activated a.reasonCode a.actor now ∧ s.updateSwitch row active = .success s' := by
  simp only [Store.activateRow, Attempt.bind_eq_success, failUnless_eq_success,
    Attempt.pure_eq] at h
  obtain ⟨_, -, s₁, hupdate, h⟩ := h
  cases h
  exact ⟨rfl, hupdate⟩

/-- Nothing of the trading tables changed, and the switches by one statement at most. -/
structure Operated (s s' : Store) : Prop where
  same : SameTrading s s'
  switches : SwitchesMoved s.switches s'.switches

omit [Hashing] in
theorem Operated.refl (s : Store) : Operated s s := ⟨.refl s, .kept⟩

omit [Hashing] in
theorem operated_updateSwitch {old new : PaperKillSwitchState} (hold : old ∈ s.switches)
    (h : s.updateSwitch old new = .success s') : Operated s s' :=
  ⟨sameTrading_updateSwitch h, switchesMoved_updateSwitch hold h⟩

omit [Hashing] in
theorem Operated.audited {t : Store} (h : Operated s t) (haudit : SameTrading t s')
    (hswitches : s'.switches = t.switches) : Operated s s' :=
  ⟨h.same.trans haudit, hswitches ▸ h.switches⟩

omit [Hashing] in
theorem operated_audit (h : SameTrading s s' ∧ s'.switches = s.switches) : Operated s s' :=
  ⟨h.1, h.2 ▸ .kept⟩

theorem operated_activateSwitch {a : Activation} {active : PaperKillSwitchState}
    {now : UTCDateTime} (h : s.activateSwitch a now = .success (active, s')) : Operated s s' := by
  simp only [Store.activateSwitch, Attempt.bind_eq_success] at h
  obtain ⟨globalRow, hglobal, h⟩ := h
  cases haccount : a.accountId with
  | none =>
      simp only [haccount] at h
      exact operated_updateSwitch (mem_of_switch (switchRow_eq_success hglobal).2)
        (activateRow_eq_success h).2
  | some accountId =>
      simp only [haccount, Store.activateAccountSwitch, Attempt.bind_eq_success] at h
      obtain ⟨_, -, h⟩ := h
      split at h
      · rename_i row rows hrow
        exact operated_updateSwitch (mem_of_switch hrow) (activateRow_eq_success h).2
      · simp only [Attempt.bind_eq_success, Attempt.pure_eq] at h
        obtain ⟨_, -, s₁, hinsert, h⟩ := h
        cases h
        exact ⟨sameTrading_insertSwitch hinsert, switchesMoved_insertSwitch hinsert⟩

theorem operated_recordReconciliation {command : ReconcilePaperCommand}
    {report : LedgerReconciliationReport} {actor : String} {now : UTCDateTime}
    {action : PaperOperatorAction}
    (h : s.recordReconciliation command report actor now = .success (action, s')) :
    Operated s s' := by
  simp only [Store.recordReconciliation, mutation_eq_success, Attempt.bind_eq_success,
    Attempt.pure_eq, Prod.exists] at h
  obtain ⟨_, -, _, -, _, -, _, -, _, s₁, happend, _, -, h⟩ := h
  cases h
  exact operated_audit (sameTrading_appendAction happend)

omit [Hashing] in
theorem preparedSwitch_eq_success {command : ResumePaperCommand} {preparation : ResumePreparation}
    {row : PaperKillSwitchState} (h : s.preparedSwitch command preparation = .success row) :
    s.switch command.scope command.accountId = [row] ∧ row.active = true := by
  simp only [Store.preparedSwitch, Attempt.bind_eq_success, failUnless_eq_success,
    Attempt.pure_eq] at h
  obtain ⟨_, hrow, _, -, _, hactive, h⟩ := h
  cases h
  exact ⟨(switchRow_eq_success hrow).2, hactive.2⟩

theorem operated_completeResume {command : ResumePaperCommand} {preparation : ResumePreparation}
    {reports : List LedgerReconciliationReport} {actor : String} {now : UTCDateTime}
    {record : PaperOperationRecord}
    (h : s.completeResume command preparation reports actor now = .success (record, s')) :
    Operated s s' := by
  simp only [Store.completeResume, mutation_eq_success, Attempt.bind_eq_success, Attempt.pure_eq,
    Prod.exists] at h
  obtain ⟨_, -, row, hrow, _, -, s₁, hupdate, _, -, _, s₂, happend, _, -, h⟩ := h
  cases h
  have haudit := sameTrading_appendAction happend
  exact (operated_updateSwitch (mem_of_switch (preparedSwitch_eq_success hrow).1) hupdate).audited
    haudit.1 haudit.2

theorem operated_rejectResume {command : ResumePaperCommand} {preparation : ResumePreparation}
    {actor : String} {reasons : List String} {now : UTCDateTime} {action : PaperOperatorAction}
    (h : s.rejectResume command preparation actor reasons now = .success (action, s')) :
    Operated s s' := by
  simp only [Store.rejectResume, mutation_eq_success, Attempt.bind_eq_success] at h
  obtain ⟨_, -, row, -, h⟩ := h
  exact operated_audit (sameTrading_appendAction h)

omit [Hashing] in
/-- The global switch is one row, which the ledger's own activation makes active or leaves so. -/
theorem activateGlobal_eq_success {reasonCode actor : String} {now : UTCDateTime}
    (h : s.activateGlobalKillSwitch reasonCode actor now = .success s') :
    s' = { s with switches := s'.switches } ∧ ∃ row, s.switches.filter (·.scope = .global) = [row] ∧
      (s'.switches = s.switches ∨ s'.switches = Table.update (·.switchId = row.switchId)
        (fun _ => row.activated reasonCode actor now) s.switches) := by
  simp only [Store.activateGlobalKillSwitch, Attempt.bind_eq_success, mutation_eq_success] at h
  obtain ⟨_, -, h⟩ := h
  split at h
  · rename_i row hrow
    split at h
    · cases h
      exact ⟨rfl, row, hrow, .inl rfl⟩
    · obtain ⟨-, rfl⟩ := write_eq_success.mp h
      exact ⟨rfl, row, hrow, .inr rfl⟩
  · cases h

omit [Hashing] in
theorem operated_activateGlobal {reasonCode actor : String} {now : UTCDateTime}
    (h : s.activateGlobalKillSwitch reasonCode actor now = .success s') : Operated s s' := by
  obtain ⟨hswitches, row, hrow, hmoved⟩ := activateGlobal_eq_success h
  refine ⟨?_, ?_⟩
  · unfold SameTrading
    rw [hswitches]
  · have hstored : row ∈ s.switches :=
      List.mem_of_mem_filter (hrow ▸ List.mem_singleton_self row :
        row ∈ s.switches.filter (·.scope = .global))
    rcases hmoved with hmoved | hmoved <;> rw [hmoved]
    · exact .kept
    · exact .updated hstored ⟨rfl, rfl, rfl⟩

end

end StonksPaper
