import StonksPaper.Effects.Step
import StonksPaper.Store.Reconcile

/-!
# What an operation writes to the audit chain

An operator action is appended to the chain, and the switch that it moves, if it moves one, is at
the version that the action records. The ledger's own activation of the global switch appends
nothing.
-/

namespace StonksPaper

open Chain
open scoped ExactArithmetic

/-- The kinds of action that move a switch. -/
def OperatorActionType.Moves : OperatorActionType → Prop
  | .activated => True
  | .reconciliationFailed => True
  | .resumed => True
  | .reconciled => False
  | .resumeRejected => False

instance : DecidablePred OperatorActionType.Moves
  | .activated => isTrue trivial
  | .reconciliationFailed => isTrue trivial
  | .resumed => isTrue trivial
  | .reconciled => isFalse id
  | .resumeRejected => isFalse id

def Operation.Resumes : Operation → Prop
  | .completeResume .. => True
  | _ => False

/-- The switches and the audit chain are as they were. -/
structure SameAudit (s s' : Store) : Prop where
  switches : s'.switches = s.switches
  actions : s'.actions = s.actions
  auditHead : s'.auditHead = s.auditHead

theorem SameAudit.refl (s : Store) : SameAudit s s := ⟨rfl, rfl, rfl⟩

theorem SameAudit.trans {s t u : Store} (h : SameAudit s t) (h' : SameAudit t u) : SameAudit s u :=
  ⟨h'.switches.trans h.switches, h'.actions.trans h.actions, h'.auditHead.trans h.auditHead⟩

section

variable [Hashing] {s s' : Store}

/-- The action is the next of the chain. -/
structure ActionAppended (s s' : Store) (action : PaperOperatorAction) : Prop where
  valid : action.validate = .success ()
  sequence : action.sequence = s.auditHead.sequence + 1
  previous : action.previousActionHash = s.auditHead.actionHash
  actions : s'.actions = s.actions ++ [action]
  auditHead : s'.auditHead = ⟨action.sequence, some action.actionHash⟩

/-- What an operation does to the switches and the audit chain; `R` holds of the operations that
may make a switch inactive. -/
inductive SwitchAudited (R : Prop) (s s' : Store) : Prop where
  | kept (same : SameAudit s s')
  | noted {action : PaperOperatorAction} (appended : ActionAppended s s' action)
      (kind : ¬ action.actionType.Moves) (switches : s'.switches = s.switches)
  | moved {old new : PaperKillSwitchState} {action : PaperOperatorAction}
      (appended : ActionAppended s s' action) (kind : action.actionType.Moves)
      (stored : old ∈ s.switches)
      (same : new.switchId = old.switchId ∧ new.scope = old.scope ∧ new.accountId = old.accountId)
      (account : action.accountId = old.accountId) (version : new.version = old.version + 1)
      (recorded : action.switchVersion = new.version) (active : new.active = false → R)
      (switches : s'.switches =
        Table.update (·.switchId = old.switchId) (fun _ => new) s.switches)
  | opened {new : PaperKillSwitchState} {action : PaperOperatorAction}
      (appended : ActionAppended s s' action) (kind : action.actionType.Moves)
      (fresh : Table.Fresh (·.switchId) new.switchId s.switches)
      (account_fresh : Table.Fresh (·.accountId) new.accountId s.switches)
      (scope : new.scope = .global ↔ new.accountId = none) (of : new.accountId ≠ none)
      (account : action.accountId = new.accountId) (version : new.version = 1)
      (recorded : action.switchVersion = new.version)
      (switches : s'.switches = s.switches ++ [new])

/-! ## Operations that do not write to it -/

theorem sameAudit_append {transaction t : JournalTransaction} {sequence : ℕ} {hash : Option Sha256}
    {accountSequence : ℕ} {now : UTCDateTime}
    (h : s.append transaction sequence hash accountSequence now = .success (t, s')) :
    SameAudit s s' := by
  rcases (append_eq_success h).2 with ⟨rfl, -⟩ | ⟨row, before, after, fill, event, -, hposted⟩
  · exact .refl s'
  · rw [hposted.state]
    exact ⟨rfl, rfl, rfl⟩

theorem ExecutionPersisted.sameAudit {command : ExecutionCommand} {outcome : PaperExecutionOutcome}
    {held : AccountReservation} (h : ExecutionPersisted s command outcome held s') :
    SameAudit s s' := by
  rw [h.state]
  exact ⟨rfl, rfl, rfl⟩

theorem sameAudit_postFills {ledgerPolicy : LedgerPostingPolicy} {now : UTCDateTime}
    {fills : List Fill} {progress after : Store × LedgerProjection × ℕ}
    (h : fills.foldlM (postFill ledgerPolicy now) progress = .success after) :
    SameAudit progress.1 after.1 := by
  refine Attempt.foldlM_induct
    (P := fun (_ : List Fill) a c => SameAudit a.1 c.1) (fun _ => .refl _) ?_ h
  intro fill fills a b c hfirst hrest
  obtain ⟨-, journal, hposted⟩ := postFill_eq_success hfirst
  exact (sameAudit_append hposted.appended).trans hrest

theorem sameAudit_executeOnce {lookup : Store} {policy : PaperExecutionPolicy}
    {ledgerPolicy : LedgerPostingPolicy} {request : PaperExecutionRequest} {now : UTCDateTime}
    {record : PaperExecutionRecord}
    (h : s.executeOnce lookup policy ledgerPolicy request now = .success (record, s')) :
    SameAudit s s' := by
  rcases executeOnce_eq_success h with
    ⟨rfl, -, -⟩ | ⟨-, row, held, projection, simulated, s₁, final, finalSequence, hfresh⟩
  · exact .refl s'
  · exact hfresh.persisted.sameAudit.trans (sameAudit_postFills hfresh.posted)

theorem sameAudit_cancelPendingOrders {accountIds : List AccountId} {at_ : UTCDateTime}
    {cancelled : List UUID} (h : s.cancelPendingOrders accountIds at_ = .success (cancelled, s')) :
    SameAudit s s' := by
  unfold Store.cancelPendingOrders at h
  split at h
  · cases h
    exact .refl s
  · simp only [Attempt.bind_eq_success] at h
    obtain ⟨_, -, h⟩ := h
    refine Attempt.foldlM_invariant (I := fun progress => SameAudit s progress.2)
      (fun intent _ a b hround ha => ?_) h (.refl s)
    rcases cancelPending_eq_success hround with ⟨hsame, -, -⟩ | ⟨-, before, changed, created, hc⟩
    · rw [hsame]
      exact ha
    · refine ha.trans ?_
      rw [hc.state]
      exact ⟨rfl, rfl, rfl⟩

/-! ## Operator actions -/

theorem appendAction_eq_success {actionId : UUID} {actionType : OperatorActionType}
    {scope : KillSwitchScope} {accountId : Option AccountId} {actor reasonCode : String}
    {switchVersion : ℕ} {cancelled : List UUID} {hashes : List Sha256} {reasons : List String}
    {now : UTCDateTime} {action : PaperOperatorAction}
    (h : s.appendAction actionId actionType scope accountId actor reasonCode switchVersion cancelled
      hashes reasons now = .success (action, s')) :
    ActionAppended s s' action ∧ action.actionType = actionType ∧ action.accountId = accountId ∧
      action.switchVersion = switchVersion ∧ s'.switches = s.switches := by
  simp only [Store.appendAction, Attempt.bind_eq_success, modelValidate_eq_success,
    Store.insertAction, Store.updateAuditHead, write_eq_success, Attempt.pure_eq] at h
  obtain ⟨_, ⟨hvalid, rfl⟩, s₁, ⟨-, rfl⟩, s₂, ⟨-, rfl⟩, h⟩ := h
  cases h
  exact ⟨⟨hvalid, rfl, rfl, rfl, rfl⟩, rfl, rfl, rfl, rfl⟩

theorem ActionAppended.of_same {t : Store} {action : PaperOperatorAction}
    (h : ActionAppended t s' action) (hactions : t.actions = s.actions)
    (hhead : t.auditHead = s.auditHead) : ActionAppended s s' action :=
  ⟨h.valid, hhead ▸ h.sequence, hhead ▸ h.previous, hactions ▸ h.actions, h.auditHead⟩

omit [Hashing] in
theorem account_of_switch {scope : KillSwitchScope} {accountId : Option AccountId}
    {row : PaperKillSwitchState} {rows : List PaperKillSwitchState}
    (h : s.switch scope accountId = row :: rows) : row.accountId = accountId := by
  have hmem : row ∈ s.switch scope accountId := h ▸ List.mem_cons_self ..
  exact (of_decide_eq_true (List.mem_filter.mp hmem).2).2

/-- An activation moves the switch of its account, or adds it. -/
theorem activateSwitch_eq_success {a : Activation} {row : PaperKillSwitchState} {now : UTCDateTime}
    (h : s.activateSwitch a now = .success (row, s')) :
    (∃ old ∈ s.switches, old.accountId = a.accountId ∧
      row = old.activated a.reasonCode a.actor now ∧ s.updateSwitch old row = .success s') ∨
    ∃ accountId, a.accountId = some accountId ∧ row = a.newSwitch accountId now ∧
      s.insertSwitch row = .success s' := by
  simp only [Store.activateSwitch, Attempt.bind_eq_success] at h
  obtain ⟨globalRow, hglobal, h⟩ := h
  cases haccount : a.accountId with
  | none =>
      simp only [haccount] at h
      have hrow := (switchRow_eq_success hglobal).2
      obtain ⟨hactive, hupdate⟩ := activateRow_eq_success h
      exact .inl ⟨globalRow, mem_of_switch hrow, account_of_switch hrow, hactive, hupdate⟩
  | some accountId =>
      simp only [haccount, Store.activateAccountSwitch, Attempt.bind_eq_success] at h
      obtain ⟨_, -, h⟩ := h
      split at h
      · rename_i old rows hrow
        obtain ⟨hactive, hupdate⟩ := activateRow_eq_success h
        exact .inl ⟨old, mem_of_switch hrow, account_of_switch hrow, hactive, hupdate⟩
      · simp only [Attempt.bind_eq_success, Attempt.pure_eq] at h
        obtain ⟨_, -, s₁, hinsert, h⟩ := h
        cases h
        exact .inr ⟨accountId, rfl, rfl, hinsert⟩

theorem audited_activateOperation {a : Activation} {now : UTCDateTime}
    {record : PaperOperationRecord} {R : Prop} (hkind : a.actionType.Moves)
    (h : s.activateOperation a now = .success (record, s')) : SwitchAudited R s s' := by
  simp only [Store.activateOperation, Attempt.bind_eq_success, stateFromRow,
    integrityChecked_eq_success, modelValidate_eq_success, Attempt.pure_eq, Prod.exists] at h
  obtain ⟨_, -, active, s₁, hswitch, cancelled, s₂, hcancel, _, ⟨-, rfl⟩, action, s₃, happend, _,
    -, h⟩ := h
  cases h
  have hcancelled := sameAudit_cancelPendingOrders hcancel
  obtain ⟨happended, htype, haccount, hversion, hkept⟩ := appendAction_eq_success happend
  rcases activateSwitch_eq_success hswitch with
    ⟨old, hstored, hof, rfl, hupdate⟩ | ⟨accountId, hof, rfl, hinsert⟩
  · obtain ⟨hsame, rfl⟩ := write_eq_success.mp hupdate
    exact .moved (happended.of_same hcancelled.actions hcancelled.auditHead) (htype ▸ hkind)
      hstored ⟨hsame.1, hsame.2.1, hsame.2.2.1⟩ (haccount.trans hof.symm) rfl hversion (fun h =>
        by cases h)
      (hkept.trans hcancelled.switches)
  · obtain ⟨⟨hfresh, hscope, haccountFresh, -⟩, rfl⟩ := write_eq_success.mp hinsert
    exact .opened (happended.of_same hcancelled.actions hcancelled.auditHead) (htype ▸ hkind)
      hfresh haccountFresh hscope (by simp [Activation.newSwitch])
      (haccount.trans hof) rfl hversion (hkept.trans hcancelled.switches)

theorem audited_recordReconciliation {command : ReconcilePaperCommand}
    {report : LedgerReconciliationReport} {actor : String} {now : UTCDateTime}
    {action : PaperOperatorAction} {R : Prop}
    (h : s.recordReconciliation command report actor now = .success (action, s')) :
    SwitchAudited R s s' := by
  simp only [Store.recordReconciliation, mutation_eq_success, Attempt.bind_eq_success,
    Attempt.pure_eq, Prod.exists] at h
  obtain ⟨_, -, _, -, _, -, _, -, _, s₁, happend, _, -, h⟩ := h
  cases h
  obtain ⟨happended, htype, -, -, hkept⟩ := appendAction_eq_success happend
  exact .noted happended (htype ▸ id) hkept

theorem audited_rejectResume {command : ResumePaperCommand} {preparation : ResumePreparation}
    {actor : String} {reasons : List String} {now : UTCDateTime} {action : PaperOperatorAction}
    {R : Prop}
    (h : s.rejectResume command preparation actor reasons now = .success (action, s')) :
    SwitchAudited R s s' := by
  simp only [Store.rejectResume, mutation_eq_success, Attempt.bind_eq_success] at h
  obtain ⟨_, -, row, -, h⟩ := h
  obtain ⟨happended, htype, -, -, hkept⟩ := appendAction_eq_success h
  exact .noted happended (htype ▸ id) hkept

/-- A resume moves the switch that was prepared, with a matched report for every account. -/
theorem completeResume_eq_success {command : ResumePaperCommand} {preparation : ResumePreparation}
    {reports : List LedgerReconciliationReport} {actor : String} {now : UTCDateTime}
    {record : PaperOperationRecord}
    (h : s.completeResume command preparation reports actor now = .success (record, s')) :
    ∃ row, s.switch command.scope command.accountId = [row] ∧
      reports.map (·.accountId) = preparation.accountIds ∧
      s'.switches = Table.update (·.switchId = row.switchId)
        (fun _ => row.resumed command.reasonCode actor now) s.switches := by
  simp only [Store.completeResume, mutation_eq_success, Attempt.bind_eq_success,
    failUnless_eq_success, Attempt.pure_eq, Prod.exists] at h
  obtain ⟨_, -, row, hrow, _, hreports, s₁, hupdate, _, -, action, s₂, happend, _, -, h⟩ := h
  cases h
  obtain ⟨-, rfl⟩ := write_eq_success.mp hupdate
  obtain ⟨-, -, -, -, hkept⟩ := appendAction_eq_success happend
  exact ⟨row, (preparedSwitch_eq_success hrow).1, hreports.1, hkept⟩

theorem audited_completeResume {command : ResumePaperCommand} {preparation : ResumePreparation}
    {reports : List LedgerReconciliationReport} {actor : String} {now : UTCDateTime}
    {record : PaperOperationRecord}
    (h : s.completeResume command preparation reports actor now = .success (record, s')) :
    SwitchAudited True s s' := by
  simp only [Store.completeResume, mutation_eq_success, Attempt.bind_eq_success, stateFromRow,
    integrityChecked_eq_success, modelValidate_eq_success, Attempt.pure_eq, Prod.exists] at h
  obtain ⟨_, -, row, hrow, _, -, s₁, hupdate, _, ⟨-, rfl⟩, action, s₂, happend, _, -, h⟩ := h
  cases h
  have hswitch := (preparedSwitch_eq_success hrow).1
  obtain ⟨hsame, rfl⟩ := write_eq_success.mp hupdate
  obtain ⟨happended, htype, haccount, hversion, hkept⟩ := appendAction_eq_success happend
  exact .moved (happended.of_same rfl rfl) (htype ▸ trivial) (mem_of_switch hswitch)
    ⟨hsame.1, hsame.2.1, hsame.2.2.1⟩ (haccount.trans (account_of_switch hswitch).symm) rfl hversion
    (fun _ => trivial) hkept

/-! ## Operations -/

omit [Hashing] in
def Store.ActiveFor (s : Store) (reasonCode : String) : Prop :=
  ∀ row ∈ s.switches, row.scope = .global → row.active = true ∧ row.reasonCode = reasonCode

instance (s : Store) (reasonCode : String) : Decidable (s.ActiveFor reasonCode) :=
  inferInstanceAs (Decidable (∀ _ ∈ _, _))

/-- The execution fails in a way that activates the global switch in a second transaction. -/
def Store.Mismatched (s lookup : Store) (policy : PaperExecutionPolicy)
    (ledgerPolicy : LedgerPostingPolicy) (request : PaperExecutionRequest) (commits : Commits)
    (now : UTCDateTime) : Prop :=
  match s.executeOnce lookup policy ledgerPolicy request now with
  | .success (_, executed) => executed ≠ s ∧ commits.execution = false
  | .failure failed => failed.mismatch = true
  | .raised _ => False

omit [Hashing] in
/-- The ledger's own activation finds the global switch active for its reason, and changes
nothing. -/
theorem sameAudit_activateGlobal {reasonCode actor : String} {now : UTCDateTime}
    (hactive : s.ActiveFor reasonCode)
    (h : s.activateGlobalKillSwitch reasonCode actor now = .success s') : SameAudit s s' := by
  simp only [Store.activateGlobalKillSwitch, Attempt.bind_eq_success, mutation_eq_success] at h
  obtain ⟨_, -, h⟩ := h
  split at h
  · rename_i row hrow
    have hmem : row ∈ s.switches.filter (·.scope = .global) := hrow ▸ List.mem_singleton_self row
    obtain ⟨hstored, hscope⟩ := List.mem_filter.mp hmem
    rw [if_pos (hactive row hstored (of_decide_eq_true hscope))] at h
    cases h
    exact .refl s
  · cases h

omit [Hashing] in
theorem sameAudit_accountingMismatch {failure : Failure} {commits : Commits} {now : UTCDateTime}
    (hactive : commits.killSwitch = true → s.ActiveFor "ledger_invariant_mismatch") :
    SameAudit s (s.accountingMismatch failure commits now).2 := by
  unfold Store.accountingMismatch
  split
  · rename_i activated hactivated
    split
    · rename_i hcommits
      exact sameAudit_activateGlobal (hactive hcommits) hactivated
    · exact .refl s
  · exact .refl s
  · exact .refl s

theorem sameAudit_executeReferencePaper {lookup : Store} {policy : PaperExecutionPolicy}
    {ledgerPolicy : LedgerPostingPolicy} {request : PaperExecutionRequest} {commits : Commits}
    {now : UTCDateTime}
    (hactive : s.Mismatched lookup policy ledgerPolicy request commits now →
      commits.killSwitch = true → s.ActiveFor "ledger_invariant_mismatch") :
    SameAudit s (s.executeReferencePaper lookup policy ledgerPolicy request commits now).2 := by
  unfold Store.Mismatched at hactive
  unfold Store.executeReferencePaper
  split
  · rename_i record executed hexecuted
    split
    · exact sameAudit_executeOnce hexecuted
    · rename_i hfailed
      refine sameAudit_accountingMismatch (hactive ?_)
      rw [hexecuted]
      have hfailed := not_or.mp hfailed
      exact ⟨hfailed.1, Bool.eq_false_of_not_eq_true hfailed.2⟩
  · exact .refl s
  · rename_i failed hexecuted
    refine sameAudit_accountingMismatch (hactive ?_)
    rw [hexecuted]
  · exact .refl s

omit [Hashing] in
theorem sameAudit_activateReconciliation {commits : Bool} {now : UTCDateTime}
    (hactive : commits = true → s.ActiveFor "ledger_reconciliation_failed") :
    SameAudit s (s.activateReconciliationKillSwitch commits now).2 := by
  unfold Store.activateReconciliationKillSwitch
  split
  · rename_i activated hactivated
    split
    · rename_i hcommits
      exact sameAudit_activateGlobal (hactive hcommits) hactivated
    · exact .refl s
  · exact .refl s
  · exact .refl s

theorem sameAudit_reconcilePaperAccount {read : Store} {accountId : AccountId}
    {asOf now : UTCDateTime} {commits : Bool}
    (hactive : read.Unreconciled accountId asOf → commits = true →
      s.ActiveFor "ledger_reconciliation_failed") :
    SameAudit s (s.reconcilePaperAccount read accountId asOf commits now).2 := by
  unfold Store.reconcilePaperAccount
  split
  · rename_i hunreconciled
    have hsame : SameAudit s (s.activateReconciliationKillSwitch commits now).2 :=
      sameAudit_activateReconciliation (hactive hunreconciled)
    split
    · rename_i hactivated
      rwa [hactivated] at hsame
    · rename_i hactivated
      rwa [hactivated] at hsame
    · rename_i hactivated
      rwa [hactivated] at hsame
  · exact .refl s

theorem audited_kept {α : Type} {x : Call (α × Store)} {R : Prop}
    (h : ∀ a s', x = .success (a, s') → SwitchAudited R s s') :
    SwitchAudited R s (s.kept x) :=
  kept_invariant (R := SwitchAudited R) (.kept (.refl s)) h

/-- Every operation that activates no switch of its own accord explains what it does to them. -/
theorem audited_after {w : World} {now : UTCDateTime} {op : Operation}
    (hactive : ∀ age policy ledgerPolicy request commits,
      op = .executeReferencePaper age policy ledgerPolicy request commits →
        w.store.Mismatched (w.view age) policy ledgerPolicy request commits now →
          commits.killSwitch = true → w.store.ActiveFor "ledger_invariant_mismatch") :
    SwitchAudited op.Resumes w.store (op.after w now) := by
  cases op with
  | registerAccount =>
      refine audited_kept fun _ _ h => .kept ?_
      rcases registerAccount_eq_success h with rfl | ⟨rfl, -⟩
      · exact .refl _
      · exact ⟨rfl, rfl, rfl⟩
  | saveTarget =>
      refine audited_kept fun _ _ h => .kept ?_
      rcases saveTarget_eq_success h with rfl | rfl
      · exact .refl _
      · exact ⟨rfl, rfl, rfl⟩
  | saveRiskDecision =>
      refine audited_kept fun _ _ h => .kept ?_
      rcases saveRiskDecision_eq_success h with rfl | rfl
      · exact .refl _
      · exact ⟨rfl, rfl, rfl⟩
  | createReservationOrders =>
      refine audited_kept fun _ _ h => .kept ?_
      rcases createReservationOrders_eq_success h with rfl | ⟨row, event, hcreated⟩
      · exact .refl _
      · rw [hcreated.state]
        exact ⟨rfl, rfl, rfl⟩
  | applyPaperExecution =>
      refine audited_kept fun _ _ h => .kept ?_
      rcases applyPaperExecution_eq_success h with ⟨rfl, -, -⟩ | ⟨-, -, -, held, hpersisted⟩
      · exact .refl _
      · exact hpersisted.sameAudit
  | append => exact audited_kept fun _ _ h => .kept (sameAudit_append h)
  | executeReferencePaper =>
      exact .kept (sameAudit_executeReferencePaper (hactive _ _ _ _ _ rfl))
  | activate command actor =>
      have hkind : (command.activation actor).actionType.Moves := trivial
      exact audited_kept fun _ _ h => audited_activateOperation hkind (mutation_eq_success.mp h)
  | failReconciliation command actor mismatchReasons =>
      have hkind : (command.activation actor mismatchReasons).actionType.Moves := trivial
      exact audited_kept fun _ _ h => audited_activateOperation hkind (mutation_eq_success.mp h)
  | recordReconciliation => exact audited_kept fun _ _ h => audited_recordReconciliation h
  | completeResume => exact audited_kept fun _ _ h => audited_completeResume h
  | rejectResume => exact audited_kept fun _ _ h => audited_rejectResume h

end

end StonksPaper
