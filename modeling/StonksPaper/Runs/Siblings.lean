import StonksPaper.Base.Aligned
import StonksPaper.Runs.Finish
import StonksPaper.Runs.Reserved
import StonksPaper.Runs.Stamp

/-!
# The orders of one batch

The intents and reservations of a batch are bound to the sequence that the batch moved its account
to, and `build_execution_command` refuses them at every other one. An execution leaves the sequence
as it is unless it fills: the journal of a fill moves the account on, and what is left of the batch
has to be authorised again.
-/

namespace StonksPaper

open Chain
open scoped ExactArithmetic

/-- The row that the reservation is taken from is at the sequence that the reservation is bound to:
only then it can be given back. -/
def AccountReservation.Sequenced (r : AccountReservation) (s : Store) : Prop :=
  match r.kind with
  | .cash => ∃ row ∈ s.cashOf r.accountId, row.currency = r.commodity ∧
      row.updatedSequence = r.accountAggregateSequence
  | .position => ∃ row ∈ s.positionsOf r.accountId, some row.instrumentId = r.instrumentId ∧
      row.updatedSequence = r.accountAggregateSequence

/-- The checks of sequences that an execution of the command makes: the one of `_execute_once`,
which `apply_paper_execution` repeats, and the one of `_release_projection`. -/
structure Current (s : Store) (command : ExecutionCommand) : Prop where
  account : ∃ row, s.account command.intent.accountId = some row ∧
    row.aggregateSequence = command.accountAggregateSequence
  projection : ∃ held, s.reservation command.intent.reservationId = some held ∧ held.Sequenced s

def Store.transactionsOf (s : Store) (accountId : AccountId) : List JournalTransaction :=
  s.journal.filter (·.accountId = accountId)

/-- What identifies an attempt. -/
structure ExecutionAttempt where
  commandId : UUID
  generation : ℕ
  nonce : String
  issuedAt : UTCDateTime

section

variable [Hashing]

/-- A command for the intent can be built from the stored rows at the account's sequences, and it is
not stale. -/
def Executable (s : Store) (intent : OrderIntent) (attempt : ExecutionAttempt) : Prop :=
  ∃ row decision command, s.account intent.accountId = some row ∧
    Table.get (·.decisionId) s.decisions intent.riskDecisionId = some decision ∧
    buildExecutionCommand attempt.commandId intent decision (s.reservation intent.reservationId)
      row.aggregateSequence row.portfolioSequence attempt.generation attempt.nonce
      attempt.issuedAt = .success command ∧
    Current s command

/-- The intent carries the hash and the portfolio sequence of its decision, as `create_order_intent`
binds them, and the sequence is the account's. -/
structure BoundTo (s : Store) (intent : OrderIntent) (decision : RiskDecision) : Prop where
  hash : intent.riskDecisionHash = decision.decisionHash
  portfolio : intent.portfolioSequence = decision.portfolioSequence
  current : ∀ row, s.account intent.accountId = some row →
    row.portfolioSequence = intent.portfolioSequence

/-- The attempt is made while the intent and its authorisation are valid. -/
structure Timely (pair : ReservationOrderPair) (decision : RiskDecision)
    (attempt : ExecutionAttempt) : Prop where
  generation : 1 ≤ attempt.generation
  nonce : attempt.nonce ≠ ""
  window : pair.2.createdAt ≤ attempt.issuedAt ∧ attempt.issuedAt < pair.2.validUntil
  authorised : attempt.issuedAt < pair.1.reservation.expiresAt ∧ attempt.issuedAt <
    decision.expiresAt

def BatchAccepted (w : World) (pairs : List ReservationOrderPair) (now : UTCDateTime) : Prop :=
  ∃ record s', w.store.createReservationOrders pairs now = .success (record, s') ∧ s' ≠ w.store

/-- The call executes another order of the batch. -/
def CallsSibling (pairs : List ReservationOrderPair) (intent : OrderIntent) (op : Timed) : Prop :=
  ∃ age policy ledgerPolicy request commits,
    op.1 = .executeReferencePaper age policy ledgerPolicy request commits ∧
      request.command.intent ∈ pairs.map (·.2) ∧
      request.command.intent.intentId ≠ intent.intentId

variable {s s' : Store} {r : AccountReservation}

/-! ## What a call for a sibling leaves -/

/-- The reservation and the decisions stay, and the account moves on by one for each transaction of
its journal. -/
structure Spares (r : AccountReservation) (s s' : Store) : Prop where
  decisions : s'.decisions = s.decisions
  reservation : s.reservation r.reservationId = some r → s'.reservation r.reservationId = some r
  journal : s.transactionsOf r.accountId <+: s'.transactionsOf r.accountId
  account : ∀ row, s.account r.accountId = some row → ∃ row', s'.account r.accountId = some row' ∧
    row'.portfolioSequence = row.portfolioSequence ∧
    row'.aggregateSequence + (s.transactionsOf r.accountId).length =
      row.aggregateSequence + (s'.transactionsOf r.accountId).length

omit [Hashing] in
theorem Spares.refl (r : AccountReservation) (s : Store) : Spares r s s :=
  ⟨rfl, fun h => h, List.prefix_rfl, fun row h => ⟨row, h, rfl, rfl⟩⟩

omit [Hashing] in
theorem Spares.trans {t : Store} (h : Spares r s t) (h' : Spares r t s') : Spares r s s' := by
  refine ⟨h'.decisions.trans h.decisions, fun hheld => h'.reservation (h.reservation hheld),
    h.journal.trans h'.journal, fun row hrow => ?_⟩
  obtain ⟨middle, hmiddle, hportfolio, hcount⟩ := h.account row hrow
  obtain ⟨last, hlast, hportfolio', hcount'⟩ := h'.account middle hmiddle
  refine ⟨last, hlast, hportfolio'.trans hportfolio, ?_⟩
  omega

omit [Hashing] in
theorem Spares.of_same (h : SameTrading s s') : Spares r s s' := by
  rw [h]
  exact ⟨rfl, fun hheld => hheld, List.prefix_rfl, fun row hrow => ⟨row, hrow, rfl, rfl⟩⟩

/-- An outcome changes no reservation but its own, and no account. -/
theorem ExecutionPersisted.spares {command : ExecutionCommand} {outcome : PaperExecutionOutcome}
    {held : AccountReservation} (h : ExecutionPersisted s command outcome held s')
    (hother : held.reservationId ≠ r.reservationId) : Spares r s s' := by
  have hreservations : s'.reservations = (s.mutated held outcome.finalReservation
      outcome.reservationMutations).reservations := by
    rw [h.state]
    rfl
  have hjournal : s'.journal = s.journal := by
    rw [h.state]
    rfl
  have haccounts : s'.accounts = s.accounts := by
    rw [h.state]
    rfl
  have hdecisions : s'.decisions = s.decisions := by
    rw [h.state]
    rfl
  have hsame : s'.transactionsOf r.accountId = s.transactionsOf r.accountId := by
    rw [Store.transactionsOf, hjournal]
    rfl
  refine ⟨hdecisions, fun hheld => ?_, hsame ▸ List.prefix_rfl, fun row hrow => ?_⟩
  · rw [← hheld, Store.reservation, hreservations, Store.mutated]
    simp only
    split
    · rfl
    · refine Table.get_update_of_ne (fun row hrow => hrow.symm) fun row hrow => ?_
      rw [hrow]
      exact hother
  · refine ⟨row, ?_, rfl, by rw [hsame]⟩
    rw [Store.account, haccounts]
    exact hrow

omit [Hashing] in
theorem JournalPosted.spares [Hashing] {transaction : JournalTransaction} {row : PaperAccountRow}
    {before after : LedgerProjection} {event : PaperAccountEvent} {now : UTCDateTime}
    (hrow : s.account transaction.accountId = some row)
    (h : JournalPosted s transaction row before after event now s') : Spares r s s' := by
  have hid : row.accountId = transaction.accountId := Table.key_of_get hrow
  rw [h.state]
  refine ⟨rfl, fun hheld => hheld, ?_, fun found hfound => ?_⟩
  · refine ⟨[transaction].filter (·.accountId = r.accountId), ?_⟩
    exact (List.filter_append s.journal [transaction]).symm
  · have hlength : ((s.journalled transaction row after event now).transactionsOf
        r.accountId).length =
        (s.transactionsOf r.accountId).length + if transaction.accountId =
          r.accountId then 1 else 0 := by
      unfold Store.transactionsOf Store.journalled
      rw [List.filter_append, List.length_append, List.filter_singleton]
      split <;> simp_all
    have haccount : (s.journalled transaction row after event now).account r.accountId =
        Table.get (·.accountId) (Table.update (·.accountId = row.accountId)
          (fun _ => row.posted transaction now) s.accounts) r.accountId := rfl
    by_cases hsame : transaction.accountId = r.accountId
    · rw [hsame] at hrow hid
      have heq : row = found := Option.some.inj (hrow.symm.trans hfound)
      refine ⟨row.posted transaction now, ?_, by rw [heq]; rfl, ?_⟩
      · rw [haccount, hid]
        exact Table.get_update_self hrow hid
      · rw [hlength, if_pos hsame, ← heq]
        show row.aggregateSequence + 1 + _ = _
        omega
    · refine ⟨found, ?_, rfl, ?_⟩
      · rw [haccount, Table.get_update_of_ne (fun x hx => hx.symm) fun x hx => ?_]
        · exact hfound
        · rw [hx, hid]
          exact hsame
      · rw [hlength, if_neg hsame, Nat.add_zero]

theorem spares_postFills {ledgerPolicy : LedgerPostingPolicy} {now : UTCDateTime}
    {fills : List Fill} {progress after : Store × LedgerProjection × ℕ}
    (h : fills.foldlM (postFill ledgerPolicy now) progress = .success after) :
    Spares r progress.1 after.1 := by
  refine Attempt.foldlM_induct (P := fun (_ : List Fill) a c => Spares r a.1 c.1)
    (fun a => .refl r a.1) ?_ h
  intro fill fills a b c hfirst hrest
  obtain ⟨-, journal, hposted⟩ := postFill_eq_success hfirst
  rcases (append_eq_success hposted.appended).2 with
    ⟨hsame, -⟩ | ⟨row, before, after, fill', event, hchecked, hjournal⟩
  · rwa [hsame] at hrest
  · exact (hjournal.spares hchecked.account).trans hrest

omit [Hashing] in
theorem bound_of_validate {request : PaperExecutionRequest} (h : request.validate = .success ()) :
    request.reservationBound := by
  simp only [PaperExecutionRequest.validate, Attempt.bind_eq_success, raiseUnless_eq_success] at h
  obtain ⟨_, -, _, -, _, -, _, hbound, -⟩ := h
  exact hbound

theorem spares_executeReferencePaper {lookup : Store} {policy : PaperExecutionPolicy}
    {ledgerPolicy : LedgerPostingPolicy} {request : PaperExecutionRequest} {commits : Commits}
    {now : UTCDateTime} (hstored : s.reservation r.reservationId = some r)
    (hother : request.command.intent.intentId ≠ r.orderIntentId) :
    Spares r s (s.executeReferencePaper lookup policy ledgerPolicy request commits now).2 := by
  unfold Store.executeReferencePaper
  split
  · rename_i record executed hexecuted
    split
    · rcases executeOnce_eq_success hexecuted with ⟨rfl, -, -⟩ |
        ⟨-, row, held, projection, simulated, s₁, final, finalSequence, hfresh⟩
      · exact .refl r _
      · refine Spares.trans (hfresh.persisted.spares fun heq => hother ?_)
          (spares_postFills hfresh.posted)
        have hid : held.reservationId = request.command.intent.reservationId :=
          Table.key_of_get hfresh.reserved
        have hsame : held = r := by
          have hreserved := hfresh.reserved
          rw [← hid, heq, hstored] at hreserved
          exact (Option.some.inj hreserved).symm
        rw [← hsame]
        exact (bound_of_validate hfresh.request_valid).2.1.symm
    · exact .of_same operated_accountingMismatch.same
  · exact .refl r s
  · exact .of_same operated_accountingMismatch.same
  · exact .refl r s

theorem spares_step {w : World} {op : Timed} {pairs : List ReservationOrderPair}
    {intent : OrderIntent} (hintent : r.orderIntentId = intent.intentId)
    (hstored : w.store.reservation r.reservationId = some r) (h : CallsSibling pairs intent op) :
    Spares r w.store (w.step op).store := by
  obtain ⟨age, policy, ledgerPolicy, request, commits, hop, -, hother⟩ := h
  have hstore : (w.step op).store = (w.store.executeReferencePaper (w.view age) policy ledgerPolicy
      request commits op.2).2 := by
    rw [World.step, hop]
    rfl
  rw [hstore]
  exact spares_executeReferencePaper hstored (hintent ▸ hother)

theorem spares_run {w : World} {ops : List Timed} {pairs : List ReservationOrderPair}
    {intent : OrderIntent} (hintent : r.orderIntentId = intent.intentId)
    (hstored : w.store.reservation r.reservationId = some r)
    (hops : ∀ op ∈ ops, CallsSibling pairs intent op) :
    Spares r w.store (Run.run World.step w ops).store := by
  refine Run.Meets.invariant (I := fun w' : World => Spares r w.store w'.store)
    (C := fun _ op => CallsSibling pairs intent op) (fun w' op hw hop => ?_) (.refl r w.store)
    (Run.meets_of_forall hops)
  exact hw.trans (spares_step hintent (hw.reservation hstored) hop)

/-! ## What a batch leaves -/

omit [Hashing] in
/-- Taking another reservation from the projections leaves the sequences as they are. -/
theorem AccountReservation.Sequenced.held {other : AccountReservation} (h : r.Sequenced s) :
    r.Sequenced { s with
      cash := other.holdCash s.cash, positions := other.holdPosition s.positions } := by
  unfold AccountReservation.Sequenced Store.cashOf Store.positionsOf at h ⊢
  unfold AccountReservation.holdCash AccountReservation.holdPosition
  cases hkind : r.kind with
  | cash =>
      simp only [hkind, List.mem_filter, decide_eq_true_eq, and_assoc] at h ⊢
      cases other.kind with
      | cash => exact Table.exists_mem_update (fun row _ hheld hrow =>
          ⟨hrow.1, hrow.2.1, hheld.2.2.2.1.symm.trans hrow.2.2⟩) h
      | position => exact h
  | position =>
      simp only [hkind, List.mem_filter, decide_eq_true_eq, and_assoc] at h ⊢
      cases other.kind with
      | cash => exact h
      | position => exact Table.exists_mem_update (fun row _ hheld hrow =>
          ⟨hrow.1, hrow.2.1, hheld.2.2.2.1.symm.trans hrow.2.2⟩) h

omit [Hashing] in
theorem Available.sequenced (h : Available s r) : r.Sequenced s := by
  unfold Available at h
  unfold AccountReservation.Sequenced Store.cashOf Store.positionsOf
  cases hkind : r.kind with
  | cash =>
      simp only [hkind] at h ⊢
      obtain ⟨row, hrow, hreservable⟩ := h
      exact ⟨row, List.mem_filter.mpr ⟨hrow, decide_eq_true hreservable.1⟩, hreservable.2.1,
        hreservable.2.2.2.1⟩
  | position =>
      simp only [hkind] at h ⊢
      obtain ⟨row, hrow, hreservable⟩ := h
      exact ⟨row, List.mem_filter.mpr ⟨hrow, decide_eq_true hreservable.1⟩, hreservable.2.1,
        hreservable.2.2.2.1⟩

omit [Hashing] in
theorem AccountReservation.Sequenced.reserved {pairs : List ReservationOrderPair}
    (h : r.Sequenced s)
    (hreserved : pairs.foldlM (fun s pair => s.reserveProjection pair.1.reservation) s =
      .success s') : r.Sequenced s' := by
  refine Attempt.foldlM_induct
    (P := fun (_ : List ReservationOrderPair) s s' => r.Sequenced s → r.Sequenced s')
    (fun _ h => h) (fun pair pairs s t u hfirst hrest h => ?_) hreserved h
  obtain ⟨-, rfl⟩ := reserveProjection_eq_success hfirst
  exact hrest h.held

omit [Hashing] in
/-- A reservation is taken from a row at its sequence. -/
theorem sequenced_of_reserved {pairs : List ReservationOrderPair} {pair : ReservationOrderPair}
    (h : pairs.foldlM (fun s pair => s.reserveProjection pair.1.reservation) s = .success s')
    (hpair : pair ∈ pairs) : pair.1.reservation.Sequenced s' := by
  induction pairs generalizing s with
  | nil => cases hpair
  | cons first rest ih =>
      rw [List.foldlM_cons] at h
      obtain ⟨s₁, hfirst, hrest⟩ := Attempt.bind_eq_success.mp h
      cases hpair with
      | head =>
          obtain ⟨havailable, hs₁⟩ := reserveProjection_eq_success hfirst
          have hheld : pair.1.reservation.Sequenced s₁ := by
            rw [hs₁]
            exact havailable.sequenced.held
          exact hheld.reserved hrest
      | tail _ hpair => exact ih hrest hpair

omit [Hashing] in
/-- Rows that only had something given back are at the sequence they were at. -/
theorem AccountReservation.Sequenced.released (h : r.Sequenced s)
    (hreleased : Released s s' r.accountId) : r.Sequenced s' := by
  unfold AccountReservation.Sequenced at h ⊢
  cases hkind : r.kind with
  | cash =>
      simp only [hkind] at h ⊢
      obtain ⟨row, hrow, hcurrency, hsequence⟩ := h
      obtain ⟨row', hrow', hsame⟩ := hreleased.cash.exists_right hrow
      refine ⟨row', hrow', ?_, ?_⟩
      · rw [hsame.same]
        exact hcurrency
      · rw [hsame.same]
        exact hsequence
  | position =>
      simp only [hkind] at h ⊢
      obtain ⟨row, hrow, hinstrument, hsequence⟩ := h
      obtain ⟨row', hrow', hsame⟩ := hreleased.positions.exists_right hrow
      refine ⟨row', hrow', ?_, ?_⟩
      · rw [hsame.same]
        exact hinstrument
      · rw [hsame.same]
        exact hsequence

/-- What an accepted batch leaves of one of its pairs. -/
structure PairCreated (s : Store) (pair : ReservationOrderPair) (s' : Store) : Prop where
  bound : PairBound pair
  decision : ∀ decision, Table.get (·.decisionId) s.decisions pair.2.riskDecisionId =
    some decision →
    decision.approved = true ∧ Table.get (·.decisionId) s'.decisions pair.2.riskDecisionId =
      some decision
  reservation : s'.reservation pair.1.reservation.reservationId = some pair.1.reservation
  opened : pair.1.reservation.state = .open_
  sequenced : pair.1.reservation.Sequenced s'
  account : ∃ row row', s.account pair.2.accountId = some row ∧
    s'.account pair.2.accountId = some row' ∧ row'.portfolioSequence = row.portfolioSequence ∧
    row'.aggregateSequence = pair.2.accountAggregateSequence ∧ 1 ≤ row'.aggregateSequence

theorem BatchCreated.pairCreated {ordered : List ReservationOrderPair} {now : UTCDateTime}
    {row : PaperAccountRow} {event : PaperAccountEvent} {pair : ReservationOrderPair}
    (h : BatchCreated s ordered now row event s') (hpair : pair ∈ ordered) :
    PairCreated s pair s' := by
  have hbound := h.bound pair hpair
  obtain ⟨-, -, -, hdecision, -, haccount, hsequence⟩ := h.bound pair hpair
  have hof : pair.2.accountId = row.accountId := haccount.symm.trans (h.account_of pair hpair)
  obtain ⟨hstored, hopened⟩ := reservation_of_inserted h.inserted hpair
  have hsequenced := sequenced_of_reserved h.reserved hpair
  have hauthorised := h.authorised pair hpair
  simp only [Store.validateReservationOrderInputs, Attempt.bind_eq_success, orFail_eq_success,
    failUnless_eq_success] at hauthorised
  obtain ⟨_, -, risk, hrisk, target, -, -, -, -, happroved⟩ := hauthorised
  constructor
  · exact hbound
  · intro decision hget
    rw [hdecision, hget] at hrisk
    cases hrisk
    rw [h.state]
    exact ⟨happroved, hget⟩
  · exact hstored
  · exact hopened
  · rw [h.state]
    exact hsequenced
  · refine ⟨row, { row with aggregateSequence := row.aggregateSequence + 1, updatedAt := now },
      hof ▸ h.account, ?_, rfl, ?_, Nat.le_add_left 1 _⟩
    · rw [hof, h.state]
      exact Table.get_update_self h.account rfl
    · exact (h.sequence_of pair hpair).symm.trans hsequence

/-! ## Building the command -/

/-- What `_validate_command_binding` checks of the parts of a command. -/
structure CommandAuthorised (intent : OrderIntent) (decision : RiskDecision)
    (r : AccountReservation) (accountSequence portfolioSequence : ℕ) (issuedAt : UTCDateTime) :
    Prop where
  bound : decision.approved = true ∧ intent.riskDecisionId = decision.decisionId ∧
    intent.riskDecisionHash = decision.decisionHash ∧ intent.reservationId = r.reservationId ∧
    intent.reservationHash = r.eventHash ∧ r.state = .open_ ∧ r.orderIntentId = intent.intentId ∧
    accountSequence = intent.accountAggregateSequence ∧
    accountSequence = r.accountAggregateSequence ∧
    portfolioSequence = intent.portfolioSequence ∧ portfolioSequence = decision.portfolioSequence
  window : intent.createdAt ≤ issuedAt ∧ issuedAt < intent.validUntil
  authorised : issuedAt < r.expiresAt ∧ issuedAt < decision.expiresAt

variable {intent : OrderIntent} {decision : RiskDecision} {attempt : ExecutionAttempt}

omit [Hashing] in
theorem validateCommandBinding_eq_success {held : Option AccountReservation}
    {accountSequence portfolioSequence : ℕ} {issuedAt : UTCDateTime} :
    validateCommandBinding intent decision held accountSequence portfolioSequence issuedAt =
        .success r ↔
      held = some r ∧
        CommandAuthorised intent decision r accountSequence portfolioSequence issuedAt := by
  cases held with
  | none => simp [validateCommandBinding, fail]
  | some stored =>
      simp only [validateCommandBinding, Attempt.bind_eq_success, failUnless_eq_success,
        Attempt.pure_eq, Attempt.success.injEq, Option.some.injEq]
      constructor
      · intro h
        obtain ⟨_, hbound, _, hwindow, _, hauthorised, rfl⟩ := h
        exact ⟨rfl, hbound, hwindow, hauthorised⟩
      · intro h
        obtain ⟨rfl, hbound, hwindow, hauthorised⟩ := h
        exact ⟨(), hbound, (), hwindow, (), hauthorised, rfl⟩

theorem buildExecutionCommand_eq_success {held : Option AccountReservation}
    {accountSequence portfolioSequence : ℕ} {command : ExecutionCommand} :
    buildExecutionCommand attempt.commandId intent decision held accountSequence portfolioSequence
        attempt.generation attempt.nonce attempt.issuedAt = .success command ↔
      ∃ r, (held = some r ∧ CommandAuthorised intent decision r accountSequence portfolioSequence
          attempt.issuedAt) ∧
        command.validate = .success () ∧
        command = executionCommand attempt.commandId intent decision r accountSequence
          portfolioSequence attempt.generation attempt.nonce attempt.issuedAt := by
  simp only [buildExecutionCommand, Attempt.bind_eq_success, validateCommandBinding_eq_success,
    exceptValueError_eq_success, modelValidate_eq_success]
  constructor
  · intro h
    obtain ⟨r, hauthorised, hvalid, rfl⟩ := h
    exact ⟨r, hauthorised, hvalid, rfl⟩
  · intro h
    obtain ⟨r, hauthorised, hvalid, rfl⟩ := h
    exact ⟨r, hauthorised, hvalid, rfl⟩

theorem Executable.bound (h : Executable s intent attempt) :
    ∃ row decision, s.account intent.accountId = some row ∧
      Table.get (·.decisionId) s.decisions intent.riskDecisionId = some decision ∧
      row.aggregateSequence = intent.accountAggregateSequence ∧
      row.portfolioSequence = intent.portfolioSequence ∧
      intent.portfolioSequence = decision.portfolioSequence ∧
      intent.riskDecisionHash = decision.decisionHash := by
  obtain ⟨row, decision, command, hrow, hdecision, hbuilt, -⟩ := h
  obtain ⟨r, ⟨-, hauthorised⟩, -, -⟩ := buildExecutionCommand_eq_success.mp hbuilt
  obtain ⟨-, -, hhash, -, -, -, -, hsequence, -, hportfolio, hdecided⟩ := hauthorised.bound
  exact ⟨row, decision, hrow, hdecision, hsequence, hportfolio, hportfolio.symm.trans hdecided,
    hhash⟩

/-- A command can be built where the account is at the sequences that the batch left. -/
theorem PairCreated.executable {t : Store} {pair : ReservationOrderPair} {row : PaperAccountRow}
    (h : PairCreated s pair s')
    (hdecision : Table.get (·.decisionId) s.decisions pair.2.riskDecisionId = some decision)
    (hbound : BoundTo s pair.2 decision) (htimely : Timely pair decision attempt)
    (hspared : Spares pair.1.reservation s' t) (hrow : t.account pair.2.accountId = some row)
    (hsequence : row.aggregateSequence = pair.2.accountAggregateSequence)
    (hpositive : 1 ≤ row.aggregateSequence)
    (hportfolio : row.portfolioSequence = pair.2.portfolioSequence)
    (hheld : pair.1.reservation.Sequenced t) : Executable t pair.2 attempt := by
  obtain ⟨horder, hreservation, hevent, hdecisionId, -, haccount, hbatch⟩ := h.bound
  obtain ⟨happroved, hget⟩ := h.decision decision hdecision
  have hstored : t.reservation pair.2.reservationId = some pair.1.reservation := by
    rw [← hreservation]
    exact hspared.reservation h.reservation
  have hauthorised : CommandAuthorised pair.2 decision pair.1.reservation row.aggregateSequence
      row.portfolioSequence attempt.issuedAt :=
    { bound := ⟨happroved, (Table.key_of_get hdecision).symm, hbound.hash, hreservation.symm,
        hevent.symm, h.opened, horder, hsequence, hsequence.trans hbatch.symm, hportfolio,
        hportfolio.trans hbound.portfolio⟩
      window := htimely.window
      authorised := htimely.authorised }
  let command := executionCommand attempt.commandId pair.2 decision pair.1.reservation
    row.aggregateSequence row.portfolioSequence attempt.generation attempt.nonce attempt.issuedAt
  have hvalid : command.validate = .success () := by
    simp only [ExecutionCommand.validate, Attempt.bind_eq_success, atLeast_eq_success,
      nonEmptyString_eq_success, raiseUnless_eq_success]
    exact ⟨(), hpositive, (), htimely.generation, (), htimely.nonce, (), htimely.window.1, (),
      ⟨hbound.hash.symm, hevent, hsequence, hportfolio⟩, rfl⟩
  refine ⟨row, decision, command, hrow, hspared.decisions ▸ hget, ?_, ?_, ?_⟩
  · exact buildExecutionCommand_eq_success.mpr
      ⟨pair.1.reservation, ⟨hstored, hauthorised⟩, hvalid, rfl⟩
  · exact ⟨row, hrow, rfl⟩
  · exact ⟨pair.1.reservation, hstored, hheld⟩

/-! ## Runs -/

/-- An order of an accepted batch stays executable, whatever the calls for the others were, exactly
while none of them added a transaction to the journal of the account. -/
theorem executable_iff_no_journal (at_ : UTCDateTime) (ops siblings : List Timed)
    (pairs : List ReservationOrderPair) (now : UTCDateTime) (pair : ReservationOrderPair)
    (decision : RiskDecision) (attempt : ExecutionAttempt)
    (haccepted : BatchAccepted (World.reached at_ ops) pairs now) (hpair : pair ∈ pairs)
    (hdecision : Table.get (·.decisionId) (World.reached at_ ops).store.decisions
      pair.2.riskDecisionId = some decision)
    (hsiblings : ∀ op ∈ siblings, CallsSibling pairs pair.2 op)
    (htimely : Timely pair decision attempt) :
    Executable (World.reached at_ (ops ++ (.createReservationOrders pairs, now) :: siblings)).store
        pair.2 attempt ↔
      BoundTo (World.reached at_ ops).store pair.2 decision ∧
        (World.reached at_ (ops ++
        (.createReservationOrders pairs, now) :: siblings)).store.transactionsOf
            pair.2.accountId =
          (World.reached at_ (ops ++ [(.createReservationOrders pairs, now)])).store.transactionsOf
            pair.2.accountId := by
  obtain ⟨record, s', hcreated, hnew⟩ := haccepted
  have hstep : World.reached at_ (ops ++ [(.createReservationOrders pairs, now)]) =
      (World.reached at_ ops).step (.createReservationOrders pairs, now) := by
    rw [World.reached, Run.run_append]
    rfl
  have hrun : World.reached at_ (ops ++ (.createReservationOrders pairs, now) :: siblings) =
      Run.run World.step (World.reached at_ (ops ++ [(.createReservationOrders pairs, now)]))
        siblings := by
    rw [World.reached, World.reached, Run.run_append, Run.run_append]
    rfl
  have hstore : (World.reached at_
      (ops ++ [(.createReservationOrders pairs, now)])).store = s' := by
    rw [hstep]
    exact congrArg (World.reached at_ ops).store.kept hcreated
  have hpairCreated : PairCreated (World.reached at_ ops).store pair s' := by
    rcases createReservationOrders_eq_success hcreated with hsame | ⟨row, event, hbatch⟩
    · exact absurd hsame hnew
    · exact hbatch.pairCreated (mem_sorted.mpr hpair)
  obtain ⟨row, row', hrow, hrow', hsamePortfolio, hsequence, hpositive⟩ := hpairCreated.account
  obtain ⟨horder, -, -, -, -, haccount, -⟩ := hpairCreated.bound
  rw [← hstore] at hrow'
  have hspared := spares_run
      (w := World.reached at_ (ops ++ [(.createReservationOrders pairs, now)]))
    horder (hstore ▸ hpairCreated.reservation) hsiblings
  have heffects := World.effects_run
    (World.reached at_ (ops ++ [(.createReservationOrders pairs, now)])) siblings
  rw [← hrun] at hspared heffects
  obtain ⟨last, hlast, hlastPortfolio, hcount⟩ := hspared.account row' (haccount ▸ hrow')
  rw [haccount] at hlast hcount
  constructor
  · intro hexecutable
    obtain ⟨found, decision', hfound, hdecision', hat, hportfolio, hdecided, hhash⟩ :=
      hexecutable.bound
    have hfoundLast : found = last := Option.some.inj (hfound.symm.trans hlast)
    have hsameDecision : decision' = decision := by
      rw [hspared.decisions, hstore, (hpairCreated.decision decision hdecision).2] at hdecision'
      exact (Option.some.inj hdecision').symm
    rw [hfoundLast] at hat hportfolio
    rw [hsameDecision] at hdecided hhash
    refine ⟨⟨hhash, hdecided, fun first hfirst => ?_⟩, ?_⟩
    · have hfirstRow : first = row := Option.some.inj (hfirst.symm.trans hrow)
      rw [hfirstRow, ← hsamePortfolio, ← hlastPortfolio]
      exact hportfolio
    · have hlength := hspared.journal.length_le
      rw [haccount] at hlength
      refine ((haccount ▸ hspared.journal).eq_of_length ?_).symm
      omega
  · intro h
    obtain ⟨hbound, hsame⟩ := h
    have hlastSequence : last.aggregateSequence = row'.aggregateSequence := by
      rw [hsame] at hcount
      omega
    have hreleased := heffects.stamped.related hrow' hlast hlastSequence
    refine PairCreated.executable hpairCreated hdecision hbound htimely (hstore ▸ hspared) hlast
      (hlastSequence.trans hsequence) (hlastSequence ▸ hpositive) ?_ ?_
    · rw [hlastPortfolio, hsamePortfolio]
      exact hbound.current row hrow
    · refine AccountReservation.Sequenced.released ?_ (haccount ▸ hreleased)
      rw [hstore]
      exact hpairCreated.sequenced

end

/-! ## Two orders of one batch -/

section

open scoped CodeHashing

namespace Scenario

def both : Scenario where
  legs := [{ number := 1 }, { number := 2 }]

def decided : List Timed :=
  [(.registerAccount both.snapshot "USD", 0), (.saveTarget both.target, 1),
    (.saveRiskDecision both.decision, 2)]

def secondPair : ReservationOrderPair :=
  (both.mutation { number := 2 }, both.intent { number := 2 })

def secondAttempt : ExecutionAttempt := ⟨4002, 1, "nonce", 60⟩

end Scenario

theorem both_accepted : BatchAccepted (World.reached 0 Scenario.decided)
    Scenario.both.pairs 10 := by
  have hcreated : ((World.reached 0 Scenario.decided).store.createReservationOrders
      Scenario.both.pairs 10).SucceedsWith fun result =>
        result.2.intents.length ≠ (World.reached 0 Scenario.decided).store.intents.length := by
    decide +kernel
  obtain ⟨⟨record, s'⟩, hsuccess, hlength⟩ := hcreated
  exact ⟨record, s', hsuccess, fun hsame => hlength (congrArg (·.intents.length) hsame)⟩

theorem secondPair_timely : Timely Scenario.secondPair Scenario.both.decision
    Scenario.secondAttempt := by
  constructor <;> decide +kernel

theorem calls_first (bars : List ExecutionBar) :
    ∀ op ∈ [Scenario.both.call { number := 1 } bars 50],
      CallsSibling Scenario.both.pairs Scenario.secondPair.2 op := by
  intro op hop
  rw [List.mem_singleton.mp hop]
  have hmem : Scenario.both.intent { number := 1 } ∈ Scenario.both.pairs.map (·.2) := by
    simp [Scenario.pairs, Scenario.both]
  have hother : (Scenario.both.intent { number := 1 }).intentId ≠
      Scenario.secondPair.2.intentId := by decide +kernel
  exact ⟨0, Scenario.policy, repositoryPolicy, Scenario.both.request { number := 1 } bars 50, {},
    rfl, hmem, hother⟩

theorem secondPair_bound : BoundTo (World.reached 0 Scenario.decided).store Scenario.secondPair.2
    Scenario.both.decision := by
  have hbound : Scenario.secondPair.2.riskDecisionHash = Scenario.both.decision.decisionHash ∧
      Scenario.secondPair.2.portfolioSequence = Scenario.both.decision.portfolioSequence ∧
      ∀ row ∈ (World.reached 0 Scenario.decided).store.account Scenario.secondPair.2.accountId,
        row.portfolioSequence = Scenario.secondPair.2.portfolioSequence := by decide +kernel
  exact ⟨hbound.1, hbound.2.1, hbound.2.2⟩

/-- The second order is executable after a call that left the first one pending, and no more once
the first one is filled. -/
theorem executable_iff_no_journal_both :
    Executable (World.reached 0 (Scenario.decided ++
        (.createReservationOrders Scenario.both.pairs, 10) ::
          [Scenario.both.call { number := 1 } [] 50])).store
        Scenario.secondPair.2 Scenario.secondAttempt ∧
      ¬ Executable (World.reached 0 (Scenario.decided ++
        (.createReservationOrders Scenario.both.pairs, 10) ::
          [Scenario.both.call { number := 1 } [Scenario.bar { number := 1 }] 50])).store
        Scenario.secondPair.2 Scenario.secondAttempt := by
  have hiff (bars : List ExecutionBar) := executable_iff_no_journal 0 Scenario.decided
    [Scenario.both.call { number := 1 } bars 50] Scenario.both.pairs 10 Scenario.secondPair
    Scenario.both.decision Scenario.secondAttempt both_accepted
    (by simp [Scenario.pairs, Scenario.both, Scenario.secondPair]) (by decide +kernel)
    (calls_first bars) secondPair_timely
  constructor
  · refine (hiff []).mpr ⟨secondPair_bound, ?_⟩
    decide +kernel
  · intro hexecutable
    have hsame := ((hiff [Scenario.bar { number := 1 }]).mp hexecutable).2
    revert hsame
    decide +kernel

end

end StonksPaper
