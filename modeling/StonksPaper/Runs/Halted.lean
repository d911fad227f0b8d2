import StonksPaper.Risk.Reserve
import StonksPaper.Runs.Audit

/-!
# Authorisation behind an active kill switch

`evaluate_and_authorize` reads the kill switch from its command, where the caller has put what it
observed, and not from the table of switches. An observation that is not older than the policy
allows, and that was made before an activation, lets orders be created behind the active switch.
While every observation that would pass the check is one of inactive switches, none are.
-/

namespace StonksPaper

open Chain
open scoped ExactArithmetic

/-- The operations on the store, and the authorisation of orders. -/
inductive AuthorisedOperation where
  | operation (op : Operation)
  | evaluateAndAuthorize (command : RiskAuthorizationCommand) (policy : HardRiskPolicy)

def SwitchActive (rows : List PaperKillSwitchState) (switch : Option AccountId) : Prop :=
  ∃ row ∈ rows, row.accountId = switch ∧ row.active = true

def Covers (switch : Option AccountId) (accountId : AccountId) : Prop :=
  switch = none ∨ switch = some accountId

def SameOrders (s s' : Store) : Prop :=
  s'.reservations = s.reservations ∧ s'.intents = s.intents

section

variable [Hashing]

def AuthorisedOperation.after (w : World) (now : UTCDateTime) : AuthorisedOperation → Store
  | .operation op => op.after w now
  | .evaluateAndAuthorize command policy =>
      w.store.kept (w.store.evaluateAndAuthorize command policy now)

abbrev AuthorisedTimed := AuthorisedOperation × UTCDateTime

def World.authorisedStep (w : World) (op : AuthorisedTimed) : World :=
  { store := op.1.after w op.2, past := w.store :: w.past }

def World.authorised (at_ : UTCDateTime) (ops : List AuthorisedTimed) : World :=
  Run.run World.authorisedStep ⟨Store.migrated at_, []⟩ ops

/-- The operation commits an activation of the switch. -/
def Activates (w : World) (switch : Option AccountId) (op : AuthorisedTimed) : Prop :=
  match op.1 with
  | .operation (.activate command actor) => command.accountId = switch ∧
      ∃ record s', w.store.activate command actor op.2 = .success (record, s')
  | .operation (.failReconciliation command actor mismatchReasons) => switch = none ∧
      ∃ record s', w.store.failReconciliation command actor mismatchReasons op.2 =
        .success (record, s')
  | _ => False

/-- The operation commits a resume of the switch. -/
def Resumes (w : World) (switch : Option AccountId) (op : AuthorisedTimed) : Prop :=
  match op.1 with
  | .operation (.completeResume command preparation reports actor) => command.accountId = switch ∧
      ∃ record s', w.store.completeResume command preparation reports actor op.2 =
        .success (record, s')
  | _ => False

/-- In the run, no call for the account commits a reservation or an order after a switch that covers
the account was activated and before that switch is resumed. -/
def HaltsOrders (at_ : UTCDateTime) (ops : List AuthorisedTimed) (accountId : AccountId) : Prop :=
  ∀ (before : List AuthorisedTimed) (activation : AuthorisedTimed) (between : List AuthorisedTimed)
    (command : RiskAuthorizationCommand) (policy : HardRiskPolicy) (now : UTCDateTime)
    (after : List AuthorisedTimed) (switch : Option AccountId),
    ops = before ++ activation :: (between ++
      (.evaluateAndAuthorize command policy, now) :: after) →
    command.risk.snapshot.accountId = accountId → Covers switch accountId →
    Activates (World.authorised at_ before) switch activation →
    Run.Meets World.authorisedStep (fun w op => ¬ Resumes w switch op)
      (World.authorised at_ (before ++ [activation])) between →
    SameOrders (World.authorised at_ (before ++ activation :: between)).store
      (World.authorised at_ (before ++ activation :: between ++
        [(.evaluateAndAuthorize command policy, now)])).store

/-- While a switch that covers the account is active, the observation in a command for it does not
pass the check: it tells of an active switch, or is too old, or from the future. -/
def Observed (accountId : AccountId) (w : World) (op : AuthorisedTimed) : Prop :=
  match op.1 with
  | .evaluateAndAuthorize command policy => command.risk.snapshot.accountId = accountId →
      (∃ switch, Covers switch accountId ∧ SwitchActive w.store.switches switch) →
        (killSwitchCheck command.risk policy).passed = false
  | .operation _ => True

variable {s s' : Store} {rows : List PaperKillSwitchState} {switch : Option AccountId}

/-! ## Switches that stay active -/

omit [Hashing] in
/-- A row that replaces another under its identity leaves the other switches as they are. -/
theorem SwitchActive.update {old new : PaperKillSwitchState} (hk : SwitchesKept rows)
    (hold : old ∈ rows) (haccount : new.accountId = old.accountId)
    (hnew : old.accountId = switch → new.active = true) (h : SwitchActive rows switch) :
    SwitchActive (Table.update (·.switchId = old.switchId) (fun _ => new) rows) switch := by
  obtain ⟨row, hrow, hof, hactive⟩ := h
  by_cases hid : row.switchId = old.switchId
  · have hsame : row = old := hk.ids_unique.eq hrow hold hid
    rw [hsame] at hof
    have hmem : new ∈ Table.update (·.switchId = old.switchId) (fun _ => new) rows :=
      Table.mem_update.mpr ⟨old, hold, (if_pos rfl).symm⟩
    exact ⟨new, hmem, haccount.trans hof, hnew hof⟩
  · have hmem : row ∈ Table.update (·.switchId = old.switchId) (fun _ => new) rows :=
      Table.mem_update.mpr ⟨row, hrow, (if_neg hid).symm⟩
    exact ⟨row, hmem, hof, hactive⟩

omit [Hashing] in
theorem switchActive_updated {old new : PaperKillSwitchState} (hold : old ∈ rows)
    (haccount : new.accountId = old.accountId) (hactive : new.active = true) :
    SwitchActive (Table.update (·.switchId = old.switchId) (fun _ => new) rows) old.accountId :=
  ⟨new, Table.mem_update.mpr ⟨old, hold, (if_pos rfl).symm⟩, haccount, hactive⟩

theorem SwitchActive.audited {R : Prop} (h : SwitchActive s.switches switch)
    (hk : SwitchesKept s.switches) (haudited : SwitchAudited R s s') (hresumes : ¬ R) :
    SwitchActive s'.switches switch := by
  cases haudited with
  | kept same => exact same.switches ▸ h
  | noted appended kind switches => exact switches ▸ h
  | @moved old new action appended kind stored same account version recorded active switches =>
      rw [switches]
      refine h.update hk stored same.2.2 fun _ => ?_
      cases hactive : new.active with
      | true => rfl
      | false => exact absurd (active hactive) hresumes
  | opened appended kind fresh account_fresh scope of account version recorded switches =>
      obtain ⟨row, hrow, hof, hactive⟩ := h
      rw [switches]
      exact ⟨row, List.mem_append_left _ hrow, hof, hactive⟩

omit [Hashing] in
theorem SwitchActive.activateGlobal {reasonCode actor : String} {now : UTCDateTime}
    (h : SwitchActive s.switches switch) (hk : SwitchesKept s.switches)
    (hactivated : s.activateGlobalKillSwitch reasonCode actor now = .success s') :
    SwitchActive s'.switches switch := by
  obtain ⟨-, row, hrow, hmoved⟩ := activateGlobal_eq_success hactivated
  rcases hmoved with hmoved | hmoved
  · rw [hmoved]
    exact h
  · have hmem : row ∈ s.switches.filter (·.scope = .global) := hrow ▸ List.mem_singleton_self row
    rw [hmoved]
    exact h.update hk (List.mem_of_mem_filter hmem) rfl fun _ => rfl

omit [Hashing] in
theorem SwitchActive.accountingMismatch {failure : Failure} {commits : Commits} {now : UTCDateTime}
    (h : SwitchActive s.switches switch) (hk : SwitchesKept s.switches) :
    SwitchActive (s.accountingMismatch failure commits now).2.switches switch := by
  unfold Store.accountingMismatch
  split
  · rename_i activated hactivated
    split
    · exact h.activateGlobal hk hactivated
    · exact h
  · exact h
  · exact h

theorem SwitchActive.executeReferencePaper {lookup : Store} {policy : PaperExecutionPolicy}
    {ledgerPolicy : LedgerPostingPolicy} {request : PaperExecutionRequest} {commits : Commits}
    {now : UTCDateTime} (h : SwitchActive s.switches switch) (hk : SwitchesKept s.switches) :
    SwitchActive (s.executeReferencePaper lookup policy ledgerPolicy request commits now).2.switches
      switch := by
  unfold Store.executeReferencePaper
  split
  · rename_i record executed hexecuted
    split
    · have hsame := sameAudit_executeOnce hexecuted
      exact hsame.switches ▸ h
    · exact h.accountingMismatch hk
  · exact h
  · exact h.accountingMismatch hk
  · exact h

theorem SwitchActive.completeResume {command : ResumePaperCommand} {preparation : ResumePreparation}
    {reports : List LedgerReconciliationReport} {actor : String} {now : UTCDateTime}
    {record : PaperOperationRecord} (h : SwitchActive s.switches switch)
    (hk : SwitchesKept s.switches) (hother : command.accountId ≠ switch)
    (hresumed : s.completeResume command preparation reports actor now = .success (record, s')) :
    SwitchActive s'.switches switch := by
  obtain ⟨row, hswitch, -, hswitches⟩ := completeResume_eq_success hresumed
  rw [hswitches]
  refine h.update hk (mem_of_switch hswitch) rfl fun hof => ?_
  exact absurd ((account_of_switch hswitch).symm.trans hof) hother

theorem SwitchActive.operation {w : World} {op : Operation} {now : UTCDateTime}
    (h : SwitchActive w.store.switches switch) (hk : SwitchesKept w.store.switches)
    (hresumes : ¬ Resumes w switch (.operation op, now)) :
    SwitchActive (op.after w now).switches switch := by
  cases op with
  | executeReferencePaper => exact h.executeReferencePaper hk
  | completeResume command preparation reports actor =>
      refine kept_invariant (R := fun _ t => SwitchActive t.switches switch) h fun record t ht => ?_
      exact h.completeResume hk (fun heq => hresumes ⟨heq, record, t, ht⟩) ht
  | _ => exact h.audited hk (audited_after fun _ _ _ _ _ heq => by cases heq) fun hresumes =>
      hresumes

/-- After an activation the switch is active. -/
theorem switchActive_activateOperation {a : Activation} {now : UTCDateTime}
    {record : PaperOperationRecord} (h : s.activateOperation a now = .success (record, s')) :
    SwitchActive s'.switches a.accountId := by
  simp only [Store.activateOperation, Attempt.bind_eq_success, Attempt.pure_eq, Prod.exists] at h
  obtain ⟨_, -, row, s₁, hswitch, cancelled, s₂, hcancel, _, -, action, s₃, happend, _, -, h⟩ := h
  cases h
  have hcancelled := sameAudit_cancelPendingOrders hcancel
  obtain ⟨-, -, -, -, hkept⟩ := appendAction_eq_success happend
  rw [hkept, hcancelled.switches]
  rcases activateSwitch_eq_success hswitch with
    ⟨old, hstored, hof, rfl, hupdate⟩ | ⟨accountId, hof, rfl, hinsert⟩
  · obtain ⟨-, rfl⟩ := write_eq_success.mp hupdate
    rw [← hof]
    exact switchActive_updated hstored rfl rfl
  · obtain ⟨-, rfl⟩ := write_eq_success.mp hinsert
    exact ⟨_, List.mem_append_right _ (List.mem_singleton_self _), hof.symm, rfl⟩

theorem switchActive_activates {w : World} {op : AuthorisedTimed} (h : Activates w switch op) :
    SwitchActive (w.authorisedStep op).store.switches switch := by
  obtain ⟨op, now⟩ := op
  cases op with
  | evaluateAndAuthorize => exact h.elim
  | operation op =>
      cases op with
      | activate command actor =>
          obtain ⟨rfl, record, s', hactivated⟩ := h
          have hstore : (w.authorisedStep (.operation (.activate command actor), now)).store = s' :=
            congrArg w.store.kept hactivated
          rw [hstore]
          exact switchActive_activateOperation (mutation_eq_success.mp hactivated)
      | failReconciliation command actor mismatchReasons =>
          obtain ⟨rfl, record, s', hactivated⟩ := h
          have hstore : (w.authorisedStep (.operation (.failReconciliation command actor
              mismatchReasons), now)).store = s' := congrArg w.store.kept hactivated
          rw [hstore]
          exact switchActive_activateOperation (mutation_eq_success.mp hactivated)
      | _ => exact h.elim

/-! ## Authorisation -/

/-- An authorisation moves no switch, and creates nothing unless every check passes. -/
theorem evaluateAndAuthorize_eq_success {command : RiskAuthorizationCommand}
    {policy : HardRiskPolicy} {now : UTCDateTime} {result : RiskAuthorizationResult}
    (h : s.evaluateAndAuthorize command policy now = .success (result, s')) :
    s'.switches = s.switches ∧ (¬ Approves command.risk policy → SameOrders s s') := by
  simp only [Store.evaluateAndAuthorize, Attempt.bind_eq_success, Prod.exists] at h
  obtain ⟨account, -, _, -, decision, hdecision, _, s₁, htarget, _, s₂, hsaved, h⟩ := h
  have hfirst : s₁.switches = s.switches ∧ SameOrders s s₁ := by
    rcases saveTarget_eq_success htarget with rfl | rfl
    · exact ⟨rfl, rfl, rfl⟩
    · exact ⟨rfl, rfl, rfl⟩
  have hsecond : s₂.switches = s.switches ∧ SameOrders s s₂ := by
    rcases saveRiskDecision_eq_success hsaved with rfl | rfl
    · exact hfirst
    · exact hfirst
  split at h
  · rename_i happroved
    obtain ⟨happroves, -⟩ := evaluate_approved hdecision happroved
    simp only [Attempt.bind_eq_success, Attempt.pure_eq, Prod.exists] at h
    obtain ⟨orders, s₃, horders, _, -, h⟩ := h
    cases h
    refine ⟨?_, fun hrefused => absurd happroves hrefused⟩
    simp only [Store.authorizeOrders, Attempt.bind_eq_success] at horders
    obtain ⟨pairs, -, horders⟩ := horders
    split at horders
    · cases horders
      exact hsecond.1
    · simp only [Attempt.bind_eq_success, Attempt.pure_eq, Prod.exists] at horders
      obtain ⟨record, s₄, hcreated, horders⟩ := horders
      cases horders
      rcases createReservationOrders_eq_success hcreated with rfl | ⟨row, event, hbatch⟩
      · exact hsecond.1
      · rw [hbatch.state]
        exact hsecond.1
  · simp only [Attempt.bind_eq_success, Attempt.pure_eq] at h
    obtain ⟨_, -, h⟩ := h
    cases h
    exact ⟨hsecond.1, fun _ => hsecond.2⟩

theorem switches_evaluateAndAuthorize {command : RiskAuthorizationCommand}
    {policy : HardRiskPolicy} {now : UTCDateTime} :
    (s.kept (s.evaluateAndAuthorize command policy now)).switches = s.switches :=
  kept_invariant (R := fun _ t => t.switches = s.switches) rfl fun _ _ h =>
    (evaluateAndAuthorize_eq_success h).1

theorem sameOrders_evaluateAndAuthorize {command : RiskAuthorizationCommand}
    {policy : HardRiskPolicy} {now : UTCDateTime}
    (h : (killSwitchCheck command.risk policy).passed = false) :
    SameOrders s (s.kept (s.evaluateAndAuthorize command policy now)) := by
  have hrefused : ¬ Approves command.risk policy := by
    intro happroves
    have hpassed := happroves (killSwitchCheck command.risk policy) (by simp [riskChecks])
    rw [h] at hpassed
    cases hpassed
  exact kept_invariant ⟨rfl, rfl⟩ fun _ _ hauthorised =>
    (evaluateAndAuthorize_eq_success hauthorised).2 hrefused

/-! ## Runs -/

theorem SwitchesKept.authorisedStep {w : World} {op : AuthorisedTimed}
    (hk : SwitchesKept w.store.switches) : SwitchesKept (w.authorisedStep op).store.switches := by
  obtain ⟨op, now⟩ := op
  cases op with
  | operation op =>
      have heffects : Effects (fun _ _ _ => True) w.store (op.after w now) :=
        effects_after (fun _ _ _ _ _ _ _ _ _ _ => trivial) fun _ _ _ _ => trivial
      exact heffects.invariant (I := fun t => SwitchesKept t.switches) (fun _ _ h hk =>
        hk.effect h) hk
  | evaluateAndAuthorize command policy =>
      exact switches_evaluateAndAuthorize.symm ▸ hk

theorem switchesKept_authorised (at_ : UTCDateTime) (ops : List AuthorisedTimed) :
    SwitchesKept (World.authorised at_ ops).store.switches :=
  Run.invariant_run (I := fun w : World => SwitchesKept w.store.switches)
    (fun _ _ hk => hk.authorisedStep) switchesKept_migrated ops

theorem SwitchActive.authorisedStep {w : World} {op : AuthorisedTimed}
    (h : SwitchActive w.store.switches switch) (hk : SwitchesKept w.store.switches)
    (hresumes : ¬ Resumes w switch op) :
    SwitchActive (w.authorisedStep op).store.switches switch := by
  obtain ⟨op, now⟩ := op
  cases op with
  | operation op => exact h.operation hk hresumes
  | evaluateAndAuthorize command policy => exact switches_evaluateAndAuthorize.symm ▸ h

/-- In a run whose commands observe the active switches, no orders are created behind them. -/
theorem haltsOrders_of_observed (at_ : UTCDateTime) (ops : List AuthorisedTimed)
    (accountId : AccountId)
    (hops : Run.Meets World.authorisedStep (Observed accountId) ⟨Store.migrated at_, []⟩ ops) :
    HaltsOrders at_ ops accountId := by
  intro before activation between command policy now after switch hsplit haccount hcovers
    hactivates hbetween
  have hactivated : SwitchActive
      (World.authorised at_ (before ++ [activation])).store.switches switch := by
    have hstep := switchActive_activates hactivates
    rwa [World.authorised, Run.run_append]
  have hactive : SwitchActive
      (World.authorised at_ (before ++ activation :: between)).store.switches switch := by
    have hkept := Run.Meets.invariant
      (I := fun w : World => SwitchesKept w.store.switches ∧ SwitchActive w.store.switches switch)
      (fun w op hw hop => ⟨hw.1.authorisedStep, hw.2.authorisedStep hw.1 hop⟩)
      ⟨switchesKept_authorised at_ (before ++ [activation]), hactivated⟩ hbetween
    have heq : before ++ activation :: between = (before ++ [activation]) ++ between := by simp
    rw [heq, World.authorised, Run.run_append]
    exact hkept.2
  have hobserved := Run.meets_iff.mp hops (before ++ activation :: between)
    (.evaluateAndAuthorize command policy, now) after (by rw [hsplit]; simp)
  have hrefused := hobserved haccount ⟨switch, hcovers, hactive⟩
  have hlast : World.authorised at_ (before ++ activation :: between ++
      [(.evaluateAndAuthorize command policy, now)]) =
        (World.authorised at_ (before ++ activation :: between)).authorisedStep
          (.evaluateAndAuthorize command policy, now) := by
    rw [World.authorised, Run.run_append]
    rfl
  rw [hlast]
  exact sameOrders_evaluateAndAuthorize hrefused

end

/-! ## An order behind the global switch -/

section

open scoped CodeHashing

namespace Scenario

def late : RiskAuthorizationCommand where
  risk := { riskCommand 101 101 [] [(bought 1 1 (1 / 2), 101 / 2)] (1 / 2) 0 with at_ := 80 }
  orders := [plan 1]

def informed : RiskAuthorizationCommand :=
  { late with risk := { late.risk with killSwitch := ⟨true, false, 70⟩ } }

def registered : List AuthorisedTimed :=
  [(.operation (.registerAccount late.risk.snapshot "USD"), 0)]

def halt : AuthorisedTimed :=
  (.operation (.activate ⟨900, .global, none, 1, "stop"⟩ "operator"), 60)

def behind (command : RiskAuthorizationCommand) : List AuthorisedTimed :=
  registered ++ halt :: [(.evaluateAndAuthorize command widePolicy, 90)]

end Scenario

theorem haltsOrders_informed : HaltsOrders 0 (Scenario.behind Scenario.informed) "paper" := by
  refine haltsOrders_of_observed 0 (Scenario.behind Scenario.informed) "paper" ?_
  have hrefused : (killSwitchCheck Scenario.informed.risk Scenario.widePolicy).passed = false := by
    decide +kernel
  simp [Scenario.behind, Scenario.registered, Scenario.halt, Observed, hrefused]

theorem halt_activates : Activates (World.authorised 0 Scenario.registered) none Scenario.halt := by
  have hactivated : ((World.authorised 0 Scenario.registered).store.activate
      ⟨900, .global, none, 1, "stop"⟩ "operator" 60).SucceedsWith fun _ => True := by
    decide +kernel
  obtain ⟨⟨record, s'⟩, hsuccess, -⟩ := hactivated
  exact ⟨rfl, record, s', hsuccess⟩

/-- The observation is 70 microseconds old, and the policy allows 30 seconds. -/
theorem late_not_haltsOrders : Scenario.late.validate = .success () ∧
    Scenario.widePolicy.validate = .success () ∧
    ¬ HaltsOrders 0 (Scenario.behind Scenario.late) "paper" := by
  have hvalid : Scenario.late.validate = .success () ∧
      Scenario.widePolicy.validate = .success () := by decide +kernel
  refine ⟨hvalid.1, hvalid.2, fun hhalts => ?_⟩
  have hsame := hhalts Scenario.registered Scenario.halt [] Scenario.late Scenario.widePolicy 90 []
    none rfl rfl (.inl rfl) halt_activates Run.meets_nil
  have hlengths : (World.authorised 0 (Scenario.behind Scenario.late)).store.intents.length ≠
      (World.authorised 0 (Scenario.registered ++ [Scenario.halt])).store.intents.length := by
    decide +kernel
  exact hlengths (congrArg List.length hsame.2)

end

end StonksPaper
