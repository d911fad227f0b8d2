import StonksPaper.Effects.Audit
import StonksPaper.Runs.Switches

/-!
# What the operator audit explains

The operator actions form one chain, and each version of a switch is the one that an action
records, as long as no switch is moved by the ledger. The ledger activates the global switch
without an action: after that the audit no longer explains its version.
-/

namespace StonksPaper

open Chain
open scoped ExactArithmetic

/-- The operations, and the activations of the global switch that no operator makes: that of a
daily reconciliation that failed, and that of an execution whose first transaction failed. -/
inductive AuditedOperation where
  | operation (op : Operation)
  | reconcilePaperAccount (age : ℕ) (accountId : AccountId) (asOf : UTCDateTime) (commits : Bool)
  | accountingMismatch (failure : Failure) (commits : Commits)

def Store.movesOf (s : Store) (accountId : Option AccountId) : List PaperOperatorAction :=
  s.actions.filter fun a => a.accountId = accountId ∧ a.actionType.Moves

def PaperKillSwitchState.genesisVersion (w : PaperKillSwitchState) : ℕ :=
  if w.accountId = none then 1 else 0

section

variable [Hashing]

def AuditedOperation.after (w : World) (now : UTCDateTime) : AuditedOperation → Store
  | .operation op => op.after w now
  | .reconcilePaperAccount age accountId asOf commits =>
      (w.store.reconcilePaperAccount (w.view age) accountId asOf commits now).2
  | .accountingMismatch failure commits => (w.store.accountingMismatch failure commits now).2

abbrev AuditedTimed := AuditedOperation × UTCDateTime

def World.auditedStep (w : World) (op : AuditedTimed) : World :=
  { store := op.1.after w op.2, past := w.store :: w.past }

def World.audited (at_ : UTCDateTime) (ops : List AuditedTimed) : World :=
  Run.run World.auditedStep ⟨Store.migrated at_, []⟩ ops

/-- The operator actions are one chain that ends in the audit head, and the actions that moved a
switch record its versions, each once and in their order. -/
structure AuditExplains (s : Store) : Prop where
  linked : Linked PaperOperatorAction.link 0 none s.actions
  valid : ∀ a ∈ s.actions, a.validate = .success ()
  head : s.auditHead = ⟨s.actions.length, headHash PaperOperatorAction.link none s.actions⟩
  genesis : ∀ w ∈ s.switches, w.genesisVersion ≤ w.version
  versions : ∀ w ∈ s.switches, (s.movesOf w.accountId).map (·.switchVersion) =
    List.range' (w.genesisVersion + 1) (w.version - w.genesisVersion)
  movers : ∀ a ∈ s.actions, a.actionType.Moves → ∃ w ∈ s.switches, w.accountId = a.accountId

/-- If the operation makes a switch inactive, it is a resume with a matched report for every
account that the switch covers. -/
def ResumesReconciled (w : World) (op : AuditedTimed) : Prop :=
  ∀ row ∈ w.store.switches, row.active = true →
    ∀ row' ∈ (w.auditedStep op).store.switches, row'.switchId = row.switchId →
      row'.active = false →
        ∃ command preparation reports actor asOf,
          op.1 = .operation (.completeResume command preparation reports actor) ∧
            command.accountId = row.accountId ∧
            reports.map (·.accountId) = w.store.activationAccounts row.accountId ∧
            ∀ report ∈ reports, report.matched = true ∧
              w.store.reconcileLockedAccount report.accountId asOf = .success report

/-- No activation without an operator takes effect, and a resume is called as `resume_paper` calls
it. -/
def Explicable (w : World) (op : AuditedTimed) : Prop :=
  match op.1 with
  | .operation (.executeReferencePaper age policy ledgerPolicy request commits) =>
      w.store.Mismatched (w.view age) policy ledgerPolicy request commits op.2 →
        commits.killSwitch = true → w.store.ActiveFor "ledger_invariant_mismatch"
  | .operation (.completeResume command preparation reports _) =>
      w.store.PreparedResume command preparation reports
  | .operation _ => True
  | .reconcilePaperAccount age accountId asOf commits =>
      (w.view age).Unreconciled accountId asOf → commits = true →
        w.store.ActiveFor "ledger_reconciliation_failed"
  | .accountingMismatch _ commits =>
      commits.killSwitch = true → w.store.ActiveFor "ledger_invariant_mismatch"

variable {s s' : Store} {R : Prop}

/-! ## The audit of one step -/

theorem SwitchAudited.switchesMoved (h : SwitchAudited R s s') :
    SwitchesMoved s.switches s'.switches := by
  cases h with
  | kept same => exact same.switches ▸ .kept
  | noted appended kind switches => exact switches ▸ .kept
  | moved appended kind stored same account version recorded active switches =>
      exact switches ▸ .updated stored same
  | opened appended kind fresh account_fresh scope of account version recorded switches =>
      exact switches ▸ .inserted fresh account_fresh scope

omit [Hashing] in
theorem movesOf_append {a : PaperOperatorAction} (hactions : s'.actions = s.actions ++ [a])
    (accountId : Option AccountId) : s'.movesOf accountId =
      s.movesOf accountId ++ if a.accountId = accountId ∧ a.actionType.Moves then [a] else [] := by
  unfold Store.movesOf
  rw [hactions, List.filter_append, List.filter_singleton]
  by_cases h : a.accountId = accountId ∧ a.actionType.Moves
  · simp [h]
  · simp [h]

/-- What appending an action keeps of the chain. -/
theorem AuditExplains.chain (hk : AuditExplains s) {a : PaperOperatorAction}
    (h : ActionAppended s s' a) :
    Linked PaperOperatorAction.link 0 none s'.actions ∧
      (∀ a ∈ s'.actions, a.validate = .success ()) ∧
      s'.auditHead = ⟨s'.actions.length, headHash PaperOperatorAction.link none s'.actions⟩ := by
  have hsequence : a.sequence = s.actions.length + 1 := by
    rw [h.sequence, hk.head]
  have hprevious : a.previousActionHash = headHash PaperOperatorAction.link none s.actions := by
    rw [h.previous, hk.head]
  refine ⟨?_, ?_, ?_⟩
  · rw [h.actions]
    refine (linked_concat _).mpr ⟨hk.linked, ?_, hprevious⟩
    rw [Nat.zero_add]
    exact hsequence
  · rw [h.actions]
    exact List.forall_mem_append.mpr ⟨hk.valid, by simpa using h.valid⟩
  · rw [h.auditHead, h.actions, headHash_concat, hsequence, List.length_append]
    rfl

/-- What leaves the actions and the switches is explained as before. -/
theorem AuditExplains.kept (hk : AuditExplains s) (h : SameAudit s s') : AuditExplains s' := by
  have hmoves : ∀ accountId, s'.movesOf accountId = s.movesOf accountId := by
    intro accountId
    unfold Store.movesOf
    rw [h.actions]
  constructor
  · rw [h.actions]
    exact hk.linked
  · rw [h.actions]
    exact hk.valid
  · rw [h.auditHead, h.actions]
    exact hk.head
  · rw [h.switches]
    exact hk.genesis
  · rw [h.switches]
    intro w hw
    rw [hmoves]
    exact hk.versions w hw
  · rw [h.actions, h.switches]
    exact hk.movers

/-- An action that does not move a switch is explained by the switches as they are. -/
theorem AuditExplains.noted (hk : AuditExplains s) {action : PaperOperatorAction}
    (happended : ActionAppended s s' action) (hkind : ¬ action.actionType.Moves)
    (hswitches : s'.switches = s.switches) : AuditExplains s' := by
  obtain ⟨hlinked, hvalid, hhead⟩ := hk.chain happended
  refine ⟨hlinked, hvalid, hhead, ?_, ?_, ?_⟩
  · rw [hswitches]
    exact hk.genesis
  · rw [hswitches]
    intro w hw
    rw [movesOf_append happended.actions, if_neg (not_and_of_not_right _ hkind), List.append_nil]
    exact hk.versions w hw
  · rw [happended.actions, hswitches]
    refine List.forall_mem_append.mpr ⟨hk.movers, ?_⟩
    rw [List.forall_mem_singleton]
    exact fun hmoves => absurd hmoves hkind

/-- A switch that moves to its next version with the action of it. -/
theorem AuditExplains.moved (hk : AuditExplains s) (hswitches : SwitchesKept s.switches)
    {old new : PaperKillSwitchState} {action : PaperOperatorAction}
    (happended : ActionAppended s s' action) (hkind : action.actionType.Moves)
    (hstored : old ∈ s.switches)
    (hid : new.accountId = old.accountId) (haccount : action.accountId = old.accountId)
    (hversion : new.version = old.version + 1) (hrecorded : action.switchVersion = new.version)
    (hmoved : s'.switches = Table.update (·.switchId = old.switchId) (fun _ => new) s.switches) :
    AuditExplains s' := by
  obtain ⟨hlinked, hvalid, hhead⟩ := hk.chain happended
  have hgenesis : new.genesisVersion = old.genesisVersion := by
    unfold PaperKillSwitchState.genesisVersion
    rw [hid]
  have hsame : ∀ r ∈ s.switches, r.switchId = old.switchId → r = old :=
    fun r hr hof => hswitches.ids_unique.eq hr hstored hof
  have hle := hk.genesis old hstored
  refine ⟨hlinked, hvalid, hhead, ?_, ?_, ?_⟩
  · rw [hmoved]
    refine Table.forall_mem_update (fun r hr _ => hk.genesis r hr) fun r _ _ => ?_
    rw [hgenesis, hversion]
    exact hle.trans (Nat.le_succ _)
  · rw [hmoved]
    refine Table.forall_mem_update (fun r hr hof => ?_) fun r hr hof => ?_
    · have hother : action.accountId ≠ r.accountId := by
        intro heq
        have hequal := hswitches.accounts_unique.eq hr hstored (heq.symm.trans haccount)
        exact hof (by rw [hequal])
      rw [movesOf_append happended.actions, if_neg fun h => hother h.1, List.append_nil]
      exact hk.versions r hr
    · rw [movesOf_append happended.actions, hid, if_pos ⟨haccount, hkind⟩, List.map_append,
        hk.versions old hstored, hgenesis, hversion, Nat.succ_sub hle, List.range'_1_concat,
        List.map_singleton, hrecorded, hversion]
      congr 2
      omega
  · rw [happended.actions, hmoved]
    have hnew : ∃ w ∈ Table.update (·.switchId = old.switchId) (fun _ => new) s.switches,
        w.accountId = old.accountId :=
      Table.exists_mem_update (fun _ _ _ _ => hid) ⟨old, hstored, rfl⟩
    refine List.forall_mem_append.mpr ⟨fun a ha hmoves => ?_, ?_⟩
    · refine Table.exists_mem_update (fun r hr hof hr' => ?_) (hk.movers a ha hmoves)
      exact hid.trans (hsame r hr hof ▸ hr')
    · rw [List.forall_mem_singleton, haccount]
      exact fun _ => hnew

/-- A new switch with the action that opens it. -/
theorem AuditExplains.opened (hk : AuditExplains s) {new : PaperKillSwitchState}
    {action : PaperOperatorAction} (happended : ActionAppended s s' action)
    (hkind : action.actionType.Moves)
    (hfresh : Table.Fresh (·.accountId) new.accountId s.switches) (hof : new.accountId ≠ none)
    (haccount : action.accountId = new.accountId) (hversion : new.version = 1)
    (hrecorded : action.switchVersion = new.version)
    (hopened : s'.switches = s.switches ++ [new]) : AuditExplains s' := by
  obtain ⟨hlinked, hvalid, hhead⟩ := hk.chain happended
  have hgenesis : new.genesisVersion = 0 := if_neg hof
  refine ⟨hlinked, hvalid, hhead, ?_, ?_, ?_⟩
  · rw [hopened]
    refine List.forall_mem_append.mpr ⟨hk.genesis, ?_⟩
    rw [List.forall_mem_singleton, hgenesis]
    exact Nat.zero_le _
  · rw [hopened]
    refine List.forall_mem_append.mpr ⟨fun w hw => ?_, ?_⟩
    · have hother : action.accountId ≠ w.accountId := by
        intro heq
        exact hfresh w hw (heq.symm.trans haccount)
      rw [movesOf_append happended.actions, if_neg fun h => hother h.1, List.append_nil]
      exact hk.versions w hw
    · have hnone : s.movesOf new.accountId = [] := by
        refine List.filter_eq_nil_iff.mpr fun a ha hmoves => ?_
        have hmoves := of_decide_eq_true hmoves
        obtain ⟨w, hw, hother⟩ := hk.movers a ha hmoves.2
        exact hfresh w hw (hother.trans hmoves.1)
      rw [List.forall_mem_singleton, movesOf_append happended.actions, hnone,
        if_pos ⟨haccount, hkind⟩, hgenesis, hversion]
      simp [hrecorded, hversion]
  · rw [happended.actions, hopened]
    refine List.forall_mem_append.mpr ⟨fun a ha hmoves => ?_, ?_⟩
    · obtain ⟨w, hw, hother⟩ := hk.movers a ha hmoves
      exact ⟨w, List.mem_append_left _ hw, hother⟩
    · rw [List.forall_mem_singleton]
      exact fun _ => ⟨new, List.mem_append_right _ (List.mem_singleton_self new), haccount.symm⟩

theorem AuditExplains.audited (hk : AuditExplains s) (hswitches : SwitchesKept s.switches)
    (h : SwitchAudited R s s') : AuditExplains s' := by
  cases h with
  | kept same => exact hk.kept same
  | noted appended kind switches => exact hk.noted appended kind switches
  | moved appended kind stored same account version recorded active switches =>
      exact hk.moved hswitches appended kind stored same.2.2 account version recorded switches
  | opened appended kind fresh account_fresh scope of account version recorded switches =>
      exact hk.opened appended kind account_fresh of account version recorded switches

/-! ## Resuming -/

/-- Only an operation that resumes makes a switch inactive. -/
theorem SwitchAudited.resumes (h : SwitchAudited R s s') (hk : SwitchesKept s.switches)
    {row row' : PaperKillSwitchState} (hrow : row ∈ s.switches) (hactive : row.active = true)
    (hrow' : row' ∈ s'.switches) (hid : row'.switchId = row.switchId)
    (hinactive : row'.active = false) : R := by
  have hchanged : row' ∉ s.switches := by
    intro hmem
    rw [hk.ids_unique.eq hmem hrow hid, hactive] at hinactive
    cases hinactive
  cases h with
  | kept same => exact absurd (same.switches ▸ hrow') hchanged
  | noted appended kind switches => exact absurd (switches ▸ hrow') hchanged
  | @moved old new action appended kind stored same account version recorded active switches =>
      rw [switches] at hrow'
      obtain ⟨r, hr, rfl⟩ := Table.mem_update.mp hrow'
      by_cases hmoved : r.switchId = old.switchId
      · rw [if_pos hmoved] at hinactive
        exact active hinactive
      · rw [if_neg hmoved] at hchanged
        exact absurd hr hchanged
  | @opened new action appended kind fresh account_fresh scope of account version recorded
      switches =>
      rw [switches] at hrow'
      rcases List.mem_append.mp hrow' with hmem | hmem
      · exact absurd hmem hchanged
      · rw [List.mem_singleton.mp hmem] at hid
        exact absurd hid.symm (fresh row hrow)

def AuditedOperation.Resumes : AuditedOperation → Prop
  | .operation op => op.Resumes
  | _ => False

theorem audited_step {w : World} {op : AuditedTimed} (h : Explicable w op) :
    SwitchAudited op.1.Resumes w.store (w.auditedStep op).store := by
  obtain ⟨op, now⟩ := op
  cases op with
  | operation op =>
      refine audited_after fun age policy ledgerPolicy request commits hop => ?_
      rw [hop] at h
      exact h
  | reconcilePaperAccount age accountId asOf commits =>
      exact .kept (sameAudit_reconcilePaperAccount h)
  | accountingMismatch failure commits => exact .kept (sameAudit_accountingMismatch h)

/-- A row that a resume made inactive is the one that it was prepared for. -/
theorem completeResume_row {command : ResumePaperCommand} {preparation : ResumePreparation}
    {reports : List LedgerReconciliationReport} {actor : String} {now : UTCDateTime}
    {record : PaperOperationRecord} (hk : SwitchesKept s.switches)
    (h : s.completeResume command preparation reports actor now = .success (record, s'))
    {row row' : PaperKillSwitchState} (hrow : row ∈ s.switches) (hactive : row.active = true)
    (hrow' : row' ∈ s'.switches) (hid : row'.switchId = row.switchId)
    (hinactive : row'.active = false) : command.accountId = row.accountId := by
  obtain ⟨old, hswitch, -, hswitches⟩ := completeResume_eq_success h
  have hstored : old ∈ s.switches := mem_of_switch hswitch
  rw [hswitches] at hrow'
  obtain ⟨r, hr, rfl⟩ := Table.mem_update.mp hrow'
  by_cases hmoved : r.switchId = old.switchId
  · rw [if_pos hmoved] at hid
    have hsame : old = row := hk.ids_unique.eq hstored hrow hid
    rw [← hsame]
    exact (account_of_switch hswitch).symm
  · rw [if_neg hmoved] at hid hinactive
    rw [hk.ids_unique.eq hr hrow hid, hactive] at hinactive
    cases hinactive

theorem resumes_step {w : World} {op : AuditedTimed} (h : Explicable w op)
    (hk : SwitchesKept w.store.switches) : ResumesReconciled w op := by
  intro row hrow hactive row' hrow' hid hinactive
  have hresumes := (audited_step h).resumes hk hrow hactive hrow' hid hinactive
  obtain ⟨op, now⟩ := op
  cases op with
  | reconcilePaperAccount => exact hresumes.elim
  | accountingMismatch => exact hresumes.elim
  | operation op =>
      cases op with
      | completeResume command preparation reports actor =>
          obtain ⟨hprepared, asOf, hreports⟩ := h
          have hstore : (w.auditedStep (.operation (.completeResume command preparation reports
              actor), now)).store =
            w.store.kept (w.store.completeResume command preparation reports actor now) := rfl
          rw [hstore] at hrow'
          have hunchanged : row' ∉ w.store.switches := by
            intro hmem
            rw [hk.ids_unique.eq hmem hrow hid, hactive] at hinactive
            cases hinactive
          cases hcall : w.store.completeResume command preparation reports actor now with
          | success result =>
              rw [hcall] at hrow'
              have haccount := completeResume_row hk hcall hrow hactive hrow' hid hinactive
              obtain ⟨-, -, hmap, -⟩ := completeResume_eq_success hcall
              refine ⟨command, preparation, reports, actor, asOf, rfl, haccount, ?_,
                reconcilePrepared_reports hreports⟩
              rw [hmap, prepareResume_accountIds hprepared, haccount]
          | failure e =>
              rw [hcall] at hrow'
              exact absurd hrow' hunchanged
          | raised e =>
              rw [hcall] at hrow'
              exact absurd hrow' hunchanged
      | _ => exact hresumes.elim

/-! ## Runs -/

theorem auditExplains_migrated {at_ : UTCDateTime} :
    AuditExplains (Store.migrated at_) := by
  constructor
  · trivial
  · simp [Store.migrated]
  · rfl
  · simp [Store.migrated, PaperKillSwitchState.genesisVersion]
  · simp [Store.migrated, PaperKillSwitchState.genesisVersion, Store.movesOf]
  · simp [Store.migrated]

/-- In every run in which no activation without an operator takes effect, the audit explains every
version of every switch, and a switch is made inactive by a reconciled resume only. -/
theorem audit_explains_switches (at_ : UTCDateTime) (ops : List AuditedTimed)
    (hops : Run.Meets World.auditedStep Explicable ⟨Store.migrated at_, []⟩ ops) :
    AuditExplains (World.audited at_ ops).store ∧
      Run.Meets World.auditedStep ResumesReconciled ⟨Store.migrated at_, []⟩ ops := by
  have hstep : ∀ (w : World) (op : AuditedTimed),
      SwitchesKept w.store.switches ∧ AuditExplains w.store → Explicable w op →
        SwitchesKept (w.auditedStep op).store.switches ∧
          AuditExplains (w.auditedStep op).store := by
    intro w op hw hop
    have haudited := audited_step hop
    exact ⟨hw.1.moved haudited.switchesMoved, hw.2.audited hw.1 haudited⟩
  have hinit : SwitchesKept (Store.migrated at_).switches ∧ AuditExplains (Store.migrated at_) :=
    ⟨switchesKept_migrated, auditExplains_migrated⟩
  constructor
  · have hreached := Run.Meets.invariant
      (I := fun w : World => SwitchesKept w.store.switches ∧ AuditExplains w.store) hstep hinit hops
    exact hreached.2
  · exact Run.Meets.strengthen
      (I := fun w : World => SwitchesKept w.store.switches ∧ AuditExplains w.store) hstep
      (fun w op hw hop => resumes_step hop hw.1) hinit hops

end

/-! ## A reconciliation that fails -/

section

open scoped CodeHashing

namespace Scenario

def operated : List AuditedTimed :=
  (opened {} ++ stopped).map fun op => (.operation op.1, op.2)

def unregistered : List AuditedTimed := [(.reconcilePaperAccount 0 "paper" 5 true, 5)]

end Scenario

theorem audit_explains_switches_operated :
    AuditExplains (World.audited 0 Scenario.operated).store ∧
      Run.Meets World.auditedStep ResumesReconciled ⟨Store.migrated 0, []⟩ Scenario.operated := by
  refine audit_explains_switches 0 Scenario.operated ?_
  simp [Scenario.operated, Scenario.opened, Scenario.authorised, Scenario.stopped, Explicable]

/-- A failed daily reconciliation moves the global switch, and no action records its version. -/
theorem unregistered_unexplained :
    (∀ w ∈ (World.audited 0 Scenario.unregistered).store.switches, w.version = 2) ∧
      (World.audited 0 Scenario.unregistered).store.actions = [] ∧
      ¬ AuditExplains (World.audited 0 Scenario.unregistered).store := by
  have hrun : (∀ w ∈ (World.audited 0 Scenario.unregistered).store.switches, w.version = 2) ∧
      (World.audited 0 Scenario.unregistered).store.actions = [] := by
    decide +kernel
  refine ⟨hrun.1, hrun.2, fun hexplains => ?_⟩
  have hversions := hexplains.versions
  revert hversions
  decide +kernel

end

end StonksPaper
