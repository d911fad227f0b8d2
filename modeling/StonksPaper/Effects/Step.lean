import Mathlib.Logic.Relation
import StonksPaper.Effects.Execute
import StonksPaper.Effects.Operations
import StonksPaper.Store.Machine

/-!
# One change at a time

`Effect` lists the changes that operations are made of. Every operation is a chain of them, so an
invariant of the store is proved change by change.
-/

namespace StonksPaper

open Chain Relation
open scoped ExactArithmetic

section

variable [Hashing]

abbrev Permission := Store → ExecutionCommand → PaperExecutionOutcome → Prop

/-- One change of the store; `O` says which outcomes may be persisted. -/
inductive Effect (O : Permission) (s : Store) : Store → Prop where
  | registered {snapshot : AccountPortfolioSnapshot} {baseCurrency : Currency} {now : UTCDateTime}
      {state : PaperAccountState}
      (genesis : snapshot.ledgerSequence = 0 ∧ snapshot.ledgerHash = none)
      (fresh : Table.Fresh (·.accountId) snapshot.accountId s.accounts)
      (openingFresh : Table.Fresh (·.accountId) snapshot.accountId s.openings)
      (readable : (s.registered snapshot baseCurrency now).getAccount snapshot.accountId =
        .success state) : Effect O s (s.registered snapshot baseCurrency now)
  | targeted (target : PortfolioTarget) : Effect O s { s with targets := s.targets ++ [target] }
  | decided (decision : RiskDecision) :
      Effect O s { s with decisions := s.decisions ++ [decision] }
  | batch {ordered : List ReservationOrderPair} {now : UTCDateTime} {row : PaperAccountRow}
      {event : PaperAccountEvent} {s' : Store} (created : BatchCreated s ordered now row event s') :
      Effect O s s'
  | executed {command : ExecutionCommand} {outcome : PaperExecutionOutcome}
      {held : AccountReservation} {s' : Store} (permitted : O s command outcome)
      (persisted : ExecutionPersisted s command outcome held s') : Effect O s s'
  | posted {transaction : JournalTransaction} {sequence : ℕ} {hash : Option Sha256}
      {accountSequence : ℕ} {row : PaperAccountRow} {before after : LedgerProjection} {fill : Fill}
      {event : PaperAccountEvent} {now : UTCDateTime} {s' : Store}
      (checked : AppendChecked s transaction sequence hash accountSequence row before after fill)
      (posted : JournalPosted s transaction row before after event now s') : Effect O s s'
  | cancelled {intent : OrderIntent} {at_ : UTCDateTime} {before : AccountReservation}
      {changed : ReservationMutation} {created : OrderEvent} {s' : Store}
      (stored : intent ∈ s.intents)
      (cancelled : OrderCancelled s intent at_ before changed created s') : Effect O s s'
  | operated {s' : Store} (operated : Operated s s') : Effect O s s'

abbrev Effects (O : Permission) : Store → Store → Prop := ReflTransGen (Effect O)

/-- The request is made of the stored order, whose parts pass their validators. -/
structure Rehydrated (s : Store) (request : PaperExecutionRequest) : Prop where
  valid : request.validate = .success ()
  reserved : s.reservation request.command.intent.reservationId = some request.reservation
  reservation_valid : request.reservation.validate = .success ()
  events : request.priorEvents = s.orderEventsOf request.command.intent.intentId
  events_valid : ∀ e ∈ request.priorEvents, e.validate = .success ()
  events_linked : Linked OrderEvent.link 0 none request.priorEvents
  fills : request.priorFills = s.fillsOf request.command.intent.intentId
  fills_valid : ∀ f ∈ request.priorFills, f.validate = .success ()

def BrokerOutcome : Permission := fun s command outcome =>
  ∃ policy request, request.command = command ∧ Rehydrated s request ∧
    execute policy request = .success outcome

variable {O : Permission} {s s' : Store}

theorem Effects.invariant {I : Store → Prop} (h : Effects O s s')
    (hstep : ∀ s s', Effect O s s' → I s → I s') (hs : I s) : I s' := by
  induction h with
  | refl => exact hs
  | tail _ hlast ih => exact hstep _ _ hlast ih

omit [Hashing] in
theorem kept_invariant {α : Type} {R : Store → Store → Prop} {x : Call (α × Store)}
    (hrefl : R s s) (h : ∀ a s', x = .success (a, s') → R s s') : R s (s.kept x) := by
  cases x with
  | success value => exact h value.1 value.2 rfl
  | failure e => exact hrefl
  | raised e => exact hrefl

/-! ## Each operation as a chain of changes -/

theorem effects_registerAccount {snapshot : AccountPortfolioSnapshot} {baseCurrency : Currency}
    {now : UTCDateTime} {state : PaperAccountState}
    (h : s.registerAccount snapshot baseCurrency now = .success (state, s')) : Effects O s s' := by
  rcases registerAccount_eq_success h with rfl | ⟨rfl, hsequence, hhash, hfresh, hopening, hread⟩
  · exact .refl
  · exact .single (.registered ⟨hsequence, hhash⟩ hfresh hopening hread)

theorem effects_saveTarget {target t : PortfolioTarget}
    (h : s.saveTarget target = .success (t, s')) : Effects O s s' := by
  rcases saveTarget_eq_success h with rfl | rfl
  · exact .refl
  · exact .single (.targeted target)

theorem effects_saveRiskDecision {decision d : RiskDecision}
    (h : s.saveRiskDecision decision = .success (d, s')) : Effects O s s' := by
  rcases saveRiskDecision_eq_success h with rfl | rfl
  · exact .refl
  · exact .single (.decided decision)

theorem effects_createReservationOrders {pairs : List ReservationOrderPair} {now : UTCDateTime}
    {record : ReservationOrderBatchRecord}
    (h : s.createReservationOrders pairs now = .success (record, s')) : Effects O s s' := by
  rcases createReservationOrders_eq_success h with rfl | ⟨row, event, hcreated⟩
  · exact .refl
  · exact .single (.batch hcreated)

theorem effects_applyPaperExecution {command : ExecutionCommand} {outcome : PaperExecutionOutcome}
    {expected : ℕ} {record : PaperExecutionRecord} (hpermitted : O s command outcome)
    (h : s.applyPaperExecution command outcome expected = .success (record, s')) :
    Effects O s s' := by
  rcases applyPaperExecution_eq_success h with ⟨rfl, -, -⟩ | ⟨-, -, -, held, hpersisted⟩
  · exact .refl
  · exact .single (.executed hpermitted hpersisted)

theorem effects_append {transaction t : JournalTransaction} {sequence : ℕ} {hash : Option Sha256}
    {accountSequence : ℕ} {now : UTCDateTime}
    (h : s.append transaction sequence hash accountSequence now = .success (t, s')) :
    Effects O s s' := by
  rcases (append_eq_success h).2 with ⟨rfl, -⟩ | ⟨row, before, after, fill, event, hchecked,
    hposted⟩
  · exact .refl
  · exact .single (.posted hchecked hposted)

theorem effects_postFills {ledgerPolicy : LedgerPostingPolicy} {now : UTCDateTime}
    {fills : List Fill} {progress after : Store × LedgerProjection × ℕ}
    (h : fills.foldlM (postFill ledgerPolicy now) progress = .success after) :
    Effects O progress.1 after.1 := by
  refine Attempt.foldlM_induct
    (P := fun (_ : List Fill) a c => Effects O a.1 c.1) (fun _ => .refl) ?_ h
  intro fill fills a b c hfirst hrest
  obtain ⟨-, journal, hposted⟩ := postFill_eq_success hfirst
  exact (effects_append hposted.appended).trans hrest

/-- A fresh execution persists what the broker makes of the stored order. -/
theorem FreshExecution.permitted {policy : PaperExecutionPolicy}
    {ledgerPolicy : LedgerPostingPolicy} {request : PaperExecutionRequest} {now : UTCDateTime}
    {row : PaperAccountRow} {held : AccountReservation} {projection final : LedgerProjection}
    {simulated : PaperExecutionOutcome} {record : PaperExecutionRecord} {s₁ : Store}
    {finalSequence : ℕ}
    (h : FreshExecution s policy ledgerPolicy request now row held projection simulated record s₁
      final finalSequence s') : BrokerOutcome s request.command simulated := by
  have hrehydrated : Rehydrated s (request.rehydrated held
      (s.orderEventsOf request.command.intent.intentId)
      (s.fillsOf request.command.intent.intentId)) :=
    { valid := h.request_valid
      reserved := h.reserved
      reservation_valid := h.held_valid
      events := rfl
      events_valid := h.events_valid
      events_linked := h.events_linked
      fills := rfl
      fills_valid := h.fills_valid }
  exact ⟨policy, request.rehydrated held (s.orderEventsOf request.command.intent.intentId)
    (s.fillsOf request.command.intent.intentId), rfl, hrehydrated, h.outcome⟩

theorem effects_executeOnce {lookup : Store} {policy : PaperExecutionPolicy}
    {ledgerPolicy : LedgerPostingPolicy} {request : PaperExecutionRequest} {now : UTCDateTime}
    {record : PaperExecutionRecord} (hO : ∀ s c o, BrokerOutcome s c o → O s c o)
    (h : s.executeOnce lookup policy ledgerPolicy request now = .success (record, s')) :
    Effects O s s' := by
  rcases executeOnce_eq_success h with
    ⟨rfl, -, -⟩ | ⟨-, row, held, projection, simulated, s₁, final, finalSequence, hfresh⟩
  · exact .refl
  · have hpermitted : O s request.command simulated := hO _ _ _ hfresh.permitted
    exact (ReflTransGen.single (.executed hpermitted hfresh.persisted)).trans
      (effects_postFills hfresh.posted)

omit [Hashing] in
theorem operated_accountingMismatch {failure : Failure} {commits : Commits} {now : UTCDateTime} :
    Operated s (s.accountingMismatch failure commits now).2 := by
  unfold Store.accountingMismatch
  split
  · rename_i activated hactivated
    split
    · exact operated_activateGlobal hactivated
    · exact .refl s
  · exact .refl s
  · exact .refl s

theorem effects_executeReferencePaper {lookup : Store} {policy : PaperExecutionPolicy}
    {ledgerPolicy : LedgerPostingPolicy} {request : PaperExecutionRequest} {commits : Commits}
    {now : UTCDateTime} (hO : ∀ s c o, BrokerOutcome s c o → O s c o) :
    Effects O s (s.executeReferencePaper lookup policy ledgerPolicy request commits now).2 := by
  unfold Store.executeReferencePaper
  split
  · rename_i record executed hexecuted
    split
    · exact effects_executeOnce hO hexecuted
    · exact .single (.operated operated_accountingMismatch)
  · exact .refl
  · exact .single (.operated operated_accountingMismatch)
  · exact .refl

theorem effects_cancelPending {at_ : UTCDateTime} {intents : List OrderIntent}
    {progress after : List UUID × Store} (hstored : ∀ i ∈ intents, i ∈ progress.2.intents)
    (h : intents.foldlM (cancelPending at_) progress = .success after) :
    Effects O progress.2 after.2 := by
  induction intents generalizing progress with
  | nil =>
      obtain rfl : progress = after := by simpa using h
      exact .refl
  | cons intent intents ih =>
      rw [List.foldlM_cons] at h
      obtain ⟨⟨cancelled, t⟩, hfirst, hrest⟩ := Attempt.bind_eq_success.mp h
      have hlater : ∀ i ∈ intents, i ∈ progress.2.intents :=
        fun i hi => hstored i (List.mem_cons_of_mem _ hi)
      rcases cancelPending_eq_success hfirst with ⟨rfl, -, -⟩ | ⟨-, before, changed, created, hc⟩
      · change Effects O (cancelled, progress.2).2 after.2
        exact ih hlater hrest
      · have hintents : t.intents = progress.2.intents := by rw [hc.state]; rfl
        exact (ReflTransGen.single
          (.cancelled (hstored intent (List.mem_cons_self ..)) hc)).trans
            (ih (by simpa only [hintents] using hlater) hrest)

theorem effects_activateOperation {a : Activation} {now : UTCDateTime}
    {record : PaperOperationRecord}
    (h : s.activateOperation a now = .success (record, s')) : Effects O s s' := by
  simp only [Store.activateOperation, Attempt.bind_eq_success, Attempt.pure_eq, Prod.exists] at h
  obtain ⟨_, -, active, s₁, hswitch, cancelled, s₂, hcancel, _, -, action, s₃, happend, _, -,
    h⟩ := h
  cases h
  have hcancelled : Effects O s₁ s₂ := by
    unfold Store.cancelPendingOrders at hcancel
    split at hcancel
    · cases hcancel
      exact .refl
    · simp only [Attempt.bind_eq_success] at hcancel
      obtain ⟨_, -, hcancel⟩ := hcancel
      refine effects_cancelPending (fun i hi => ?_) hcancel
      exact List.mem_of_mem_filter (mem_sorted.mp hi)
  exact ((ReflTransGen.single (.operated (operated_activateSwitch hswitch))).trans
    hcancelled).tail (.operated (operated_audit (sameTrading_appendAction happend)))

/-- Every operation is a chain of changes. An operation of the application persists nothing but
outcomes of the broker. -/
theorem effects_after {w : World} {now : UTCDateTime} {op : Operation}
    (hbroker : ∀ age policy ledgerPolicy request commits,
      op = .executeReferencePaper age policy ledgerPolicy request commits →
        ∀ s c o, BrokerOutcome s c o → O s c o)
    (hraw : ∀ command outcome expected, op = .applyPaperExecution command outcome expected →
      O w.store command outcome) : Effects O w.store (op.after w now) := by
  cases op with
  | registerAccount => exact kept_invariant .refl fun _ _ h => effects_registerAccount h
  | saveTarget => exact kept_invariant .refl fun _ _ h => effects_saveTarget h
  | saveRiskDecision => exact kept_invariant .refl fun _ _ h => effects_saveRiskDecision h
  | createReservationOrders =>
      exact kept_invariant .refl fun _ _ h => effects_createReservationOrders h
  | applyPaperExecution =>
      exact kept_invariant .refl fun _ _ h => effects_applyPaperExecution (hraw _ _ _ rfl) h
  | append => exact kept_invariant .refl fun _ _ h => effects_append h
  | executeReferencePaper => exact effects_executeReferencePaper (hbroker _ _ _ _ _ rfl)
  | activate =>
      exact kept_invariant .refl fun _ _ h => effects_activateOperation (mutation_eq_success.mp h)
  | failReconciliation =>
      exact kept_invariant .refl fun _ _ h => effects_activateOperation (mutation_eq_success.mp h)
  | recordReconciliation =>
      exact kept_invariant .refl fun _ _ h =>
        .single (.operated (operated_recordReconciliation h))
  | completeResume =>
      exact kept_invariant .refl fun _ _ h => .single (.operated (operated_completeResume h))
  | rejectResume =>
      exact kept_invariant .refl fun _ _ h => .single (.operated (operated_rejectResume h))

/-! ## Invariants of runs -/

theorem World.effects_run (w : World) (ops : List Timed) :
    Effects (fun _ _ _ => True) w.store (Run.run World.step w ops).store := by
  refine Run.invariant_run (I := fun w' : World => Effects (fun _ _ _ => True) w.store w'.store)
    (fun w' op hw => ?_) .refl ops
  have heffects : Effects (fun _ _ _ => True) w'.store (op.1.after w' op.2) :=
    effects_after (fun _ _ _ _ _ _ _ _ _ _ => trivial) fun _ _ _ _ => trivial
  exact hw.trans heffects

theorem World.invariant_reached {I : Store → Prop} (at_ : UTCDateTime) (ops : List Timed)
    (hinit : I (Store.migrated at_)) (hstep : ∀ s s', Effect (fun _ _ _ => True) s s' → I s →
    I s') :
    I (World.reached at_ ops).store :=
  (World.effects_run ⟨Store.migrated at_, []⟩ ops).invariant hstep hinit

/-- The same for runs of the application's own operations, where only outcomes of the broker are
persisted. -/
theorem World.invariant_calls {I : Store → Prop} (at_ : UTCDateTime) (ops : List Timed)
    (hcalls : ∀ op ∈ ops, op.1.IsCall) (hinit : I (Store.migrated at_))
    (hstep : ∀ s s', Effect BrokerOutcome s s' → I s → I s') :
    I (World.reached at_ ops).store := by
  refine Run.Meets.invariant (I := fun w : World => I w.store) (C := fun _ op => op.1.IsCall)
    (fun w op hw hop => ?_) hinit (Run.meets_of_forall hcalls)
  have heffects : Effects BrokerOutcome w.store (op.1.after w op.2) := by
    refine effects_after (fun _ _ _ _ _ _ _ _ _ h => h) fun command outcome expected hraw => ?_
    rw [hraw] at hop
    exact hop.elim
  exact heffects.invariant hstep hw

end

end StonksPaper
