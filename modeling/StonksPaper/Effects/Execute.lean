import StonksPaper.Effects.Ledger
import StonksPaper.Store.Execute

/-!
# What an execution call writes

A call of `execute_reference_paper` that succeeds returns a stored record, or persists a new
outcome and posts one journal transaction for each of its new fills.
-/

namespace StonksPaper

open Chain
open scoped ExactArithmetic

section

variable [Hashing] {s s' : Store}

/-! ## Reading records -/

omit [Hashing] in
theorem recordFromRow_eq_success [Hashing] {row record : PaperExecutionRecord}
    (h : recordFromRow row = .success record) : record = row := by
  simp only [recordFromRow, integrityChecked_eq_success, Attempt.bind_eq_success,
    modelValidate_eq_success] at h
  obtain ⟨_, -, -, rfl⟩ := h
  rfl

theorem getExecutionRecord_eq_success {accountId : AccountId} {key : String}
    {record : PaperExecutionRecord} (h : s.getExecutionRecord accountId key = .success record) :
    s.receiptFor accountId key = some record := by
  simp only [Store.getExecutionRecord, Attempt.bind_eq_success, orFail_eq_success] at h
  obtain ⟨row, hrow, h⟩ := h
  rw [recordFromRow_eq_success h]
  exact hrow

theorem lookupRecord_eq_some {intent : OrderIntent} {record : PaperExecutionRecord} :
    s.lookupRecord intent = .success (some record) ↔
      s.getExecutionRecord intent.accountId intent.idempotencyKey = .success record := by
  unfold Store.lookupRecord
  cases s.getExecutionRecord intent.accountId intent.idempotencyKey with
  | success r => simp
  | failure e =>
      simp only [reduceCtorEq, iff_false]
      split <;> simp
  | raised e => simp

theorem lookupRecord_eq_none {intent : OrderIntent}
    (h : s.lookupRecord intent = .success none) (record : PaperExecutionRecord) :
    s.getExecutionRecord intent.accountId intent.idempotencyKey ≠ .success record := by
  intro hrecord
  rw [lookupRecord_eq_some.mpr hrecord] at h
  cases h

theorem replayRecord_eq_success {command : ExecutionCommand} {record r : PaperExecutionRecord} :
    s.replayRecord command record = .success r ↔
      record.commandHash = command.commandHash ∧ s.validateExecutionGraph record = .success () ∧
        r = record := by
  simp only [Store.replayRecord, Attempt.bind_eq_success, flagged_eq_success,
    failUnless_eq_success, Attempt.pure_eq, Attempt.success.injEq]
  constructor
  · rintro ⟨_, hhash, _, hgraph, rfl⟩
    exact ⟨hhash, hgraph, rfl⟩
  · rintro ⟨hhash, hgraph, rfl⟩
    exact ⟨(), hhash, (), hgraph, rfl⟩

theorem currentProjection_eq_success {accountId : AccountId} {p : LedgerProjection} :
    s.currentProjection accountId = .success p ↔ s.getProjection accountId = .success p := by
  unfold Store.currentProjection
  cases s.getProjection accountId <;> simp

/-! ## Posting the new fills -/

/-- What one posted fill had checked, and the store it left. -/
structure FillPosted (s : Store) (fill : Fill) (projection : LedgerProjection)
    (ledgerPolicy : LedgerPostingPolicy) (accountSequence : ℕ) (now : UTCDateTime)
    (journal : JournalTransaction) (refreshed : LedgerProjection) (s' : Store) : Prop where
  built : buildFillJournal fill projection ledgerPolicy = .success journal
  appended : s.append journal projection.ledgerSequence projection.ledgerHash accountSequence now =
    .success (journal, s')
  refreshed : s'.getProjection fill.accountId = .success refreshed

theorem postFill_eq_success {ledgerPolicy : LedgerPostingPolicy} {now : UTCDateTime}
    {projection : LedgerProjection} {accountSequence : ℕ} {fill : Fill}
    {after : Store × LedgerProjection × ℕ}
    (h : postFill ledgerPolicy now (s, projection, accountSequence) fill = .success after) :
    after.2.2 = accountSequence + 1 ∧
      ∃ journal, FillPosted s fill projection ledgerPolicy accountSequence now journal after.2.1
        after.1 := by
  simp only [postFill, Attempt.bind_eq_success, Attempt.pure_eq, Prod.exists] at h
  obtain ⟨journal, hbuild, t, s₁, happend, refreshed, hrefresh, h⟩ := h
  cases h
  obtain rfl := (append_eq_success happend).1
  exact ⟨rfl, _, hbuild, happend, hrefresh⟩

/-! ## A fresh execution -/

/-- What an execution that persisted an outcome had read and checked. -/
structure FreshExecution (s : Store) (policy : PaperExecutionPolicy)
    (ledgerPolicy : LedgerPostingPolicy) (request : PaperExecutionRequest) (now : UTCDateTime)
    (row : PaperAccountRow) (held : AccountReservation) (projection : LedgerProjection)
    (simulated : PaperExecutionOutcome) (record : PaperExecutionRecord) (s₁ : Store)
    (final : LedgerProjection) (finalSequence : ℕ) (s' : Store) : Prop where
  enabled : s.GlobalEnabled ∧ s.AccountEnabled request.command.intent.accountId
  order : s.orderFor request.command.intent.accountId request.command.intent.idempotencyKey =
    some request.command.intent
  reserved : s.reservation request.command.intent.reservationId = some held
  held_valid : held.validate = .success ()
  account : s.account request.command.intent.accountId = some row
  state : s.getAccount request.command.intent.accountId = .success (s.accountState row)
  sequence : row.aggregateSequence = request.command.accountAggregateSequence
  projected : s.getProjection request.command.intent.accountId = .success projection
  events_valid : ∀ e ∈ s.orderEventsOf request.command.intent.intentId, e.validate = .success ()
  events_linked : Linked OrderEvent.link 0 none (s.orderEventsOf request.command.intent.intentId)
  fills_valid : ∀ f ∈ s.fillsOf request.command.intent.intentId, f.validate = .success ()
  request_valid : (request.rehydrated held (s.orderEventsOf request.command.intent.intentId)
    (s.fillsOf request.command.intent.intentId)).validate = .success ()
  outcome : execute policy (request.rehydrated held
    (s.orderEventsOf request.command.intent.intentId)
    (s.fillsOf request.command.intent.intentId)) = .success simulated
  missing : s.receiptFor request.command.intent.accountId request.command.intent.idempotencyKey =
    none
  record_eq : record = executionRecord request.command simulated
  persisted : ExecutionPersisted s request.command simulated held s₁
  posted : (simulated.receipt.fills.drop
      (s.fillsOf request.command.intent.intentId).length).foldlM (postFill ledgerPolicy now)
    (s₁, projection, row.aggregateSequence) = .success (s', final, finalSequence)
  graph : s'.validateExecutionGraph record = .success ()

theorem executeCurrent_eq_success {policy : PaperExecutionPolicy}
    {ledgerPolicy : LedgerPostingPolicy} {request : PaperExecutionRequest}
    {held : AccountReservation} {accountSequence : ℕ} {now : UTCDateTime}
    {record : PaperExecutionRecord}
    (h : s.executeCurrent policy ledgerPolicy request held accountSequence now =
      .success (record, s')) :
    (s' = s ∧ s.getExecutionRecord request.command.intent.accountId
        request.command.intent.idempotencyKey = .success record ∧
        record.commandHash = request.command.commandHash) ∨
      ∃ projection, s.getProjection request.command.intent.accountId = .success projection ∧
        (∀ e ∈ s.orderEventsOf request.command.intent.intentId, e.validate = .success ()) ∧
        Linked OrderEvent.link 0 none (s.orderEventsOf request.command.intent.intentId) ∧
        (∀ f ∈ s.fillsOf request.command.intent.intentId, f.validate = .success ()) ∧
        s.lookupRecord request.command.intent = .success none ∧
        s.executeOrder policy ledgerPolicy (request.rehydrated held
          (s.orderEventsOf request.command.intent.intentId)
          (s.fillsOf request.command.intent.intentId)) projection accountSequence now =
          .success (record, s') := by
  simp only [Store.executeCurrent, Attempt.bind_eq_success, flagged_eq_success,
    currentProjection_eq_success, Store.listOrderEvents, Store.requiredEvents, Store.listFills,
    integrityChecked_eq_success, failUnless_eq_success, Attempt.forM_eq_success,
    Attempt.pure_eq] at h
  obtain ⟨projection, hprojection, _, ⟨_, ⟨_, hevents, h₁⟩, _, hlinked, h₂⟩, _, ⟨_, hfills, h₃⟩,
    found, hfound, h⟩ := h
  cases h₁
  cases h₂
  cases h₃
  cases found with
  | some existing =>
      simp only [Attempt.bind_eq_success, replayRecord_eq_success] at h
      obtain ⟨_, ⟨hhash, -, rfl⟩, h⟩ := h
      cases h
      exact .inl ⟨rfl, lookupRecord_eq_some.mp hfound, hhash⟩
  | none => exact .inr ⟨projection, hprojection, hevents, hlinked, hfills, hfound, h⟩

theorem executeStale_eq_success {request : PaperExecutionRequest} {record : PaperExecutionRecord}
    (h : s.executeStale request = .success (record, s')) :
    s' = s ∧ s.getExecutionRecord request.command.intent.accountId
      request.command.intent.idempotencyKey = .success record ∧
      record.commandHash = request.command.commandHash := by
  unfold Store.executeStale at h
  cases hrecord : s.getExecutionRecord request.command.intent.accountId
      request.command.intent.idempotencyKey with
  | success existing =>
      simp only [hrecord] at h
      split at h
      · rename_i hhash
        simp only [Attempt.bind_eq_success, Attempt.pure_eq] at h
        obtain ⟨_, -, h⟩ := h
        cases h
        exact ⟨rfl, rfl, hhash⟩
      · simp [fail, flagged] at h
  | failure e => simp [hrecord, fail, flagged] at h
  | raised e => simp [hrecord] at h

/-- Behind the lock a call finds the stored record for its command, or executes afresh. -/
theorem executeLocked_eq_success {policy : PaperExecutionPolicy}
    {ledgerPolicy : LedgerPostingPolicy} {request : PaperExecutionRequest} {now : UTCDateTime}
    {record : PaperExecutionRecord}
    (h : s.executeLocked policy ledgerPolicy request now = .success (record, s')) :
    (s' = s ∧ s.getExecutionRecord request.command.intent.accountId
        request.command.intent.idempotencyKey = .success record ∧
        record.commandHash = request.command.commandHash) ∨
      ∃ row held projection simulated s₁ final finalSequence,
        FreshExecution s policy ledgerPolicy request now row held projection simulated record s₁
          final finalSequence s' := by
  simp only [Store.executeLocked, Attempt.bind_eq_success, flagged_eq_success,
    requireExecutionEnabled_eq_success, failUnless_eq_success, Store.getOrderByIdempotency,
    Store.getReservation, orFail_eq_success, integrityChecked_eq_success,
    modelValidate_eq_success] at h
  obtain ⟨_, henabled, loaded, ⟨order, horder, -, rfl⟩, _, rfl, _, ⟨held, hheld, hvalid, rfl⟩,
    state, hstate, h⟩ := h
  obtain ⟨row, hrow, rfl, -⟩ := getAccount_eq_success hstate
  split at h
  · rename_i hsequence
    rcases executeCurrent_eq_success h with hreplay | hfresh
    · exact .inl hreplay
    · obtain ⟨projection, hprojection, hevents, hlinked, hfills, hlookup, h⟩ := hfresh
      simp only [Store.executeOrder, Attempt.bind_eq_success, flagged_eq_success,
        integrityChecked_eq_success, Attempt.pure_eq, Prod.exists] at h
      obtain ⟨_, hrequest, simulated, hsimulated, record', s₁, happly, s₂, final, finalSequence,
        hposted, _, hgraph, h⟩ := h
      cases h
      rcases applyPaperExecution_eq_success
        happly with ⟨-, hreceipt, -⟩ | ⟨hrecord, hmissing, -, hp⟩
      · -- the record that persistence would have found is one the look-up finds
        exfalso
        have hread : recordFromRow record = .success record := by
          have hread := happly
          simp only [Store.applyPaperExecution, mutation_eq_success,
            Attempt.bind_eq_success] at hread
          obtain ⟨_, -, hread⟩ := hread
          simp only [PaperExecutionRequest.rehydrated] at hread hreceipt
          simp only [hreceipt, Attempt.bind_eq_success, Attempt.pure_eq] at hread
          obtain ⟨r, hr, _, -, hread⟩ := hread
          cases hread
          exact hr
        refine lookupRecord_eq_none hlookup record ?_
        simp only [Store.getExecutionRecord]
        rw [show s.receiptFor request.command.intent.accountId
          request.command.intent.idempotencyKey = some record from hreceipt]
        exact hread
      · obtain ⟨stored, hp⟩ := hp
        obtain rfl : held = stored := Option.some.inj (hheld.symm.trans hp.reserved)
        refine .inr ⟨row, held, projection, simulated, s₁, final, finalSequence, ?_⟩
        exact
          { enabled := henabled
            order := horder
            reserved := hheld
            held_valid := hvalid
            account := hrow
            state := hstate
            sequence := hsequence
            projected := hprojection
            events_valid := hevents
            events_linked := hlinked
            fills_valid := hfills
            request_valid := hrequest
            outcome := hsimulated
            missing := hmissing
            record_eq := hrecord
            persisted := hp
            posted := hposted
            graph := hgraph }
  · exact .inl (executeStale_eq_success h)

/-- A call returns the record that its look-up found, the stored one, or executes afresh. -/
theorem executeOnce_eq_success {lookup : Store} {policy : PaperExecutionPolicy}
    {ledgerPolicy : LedgerPostingPolicy} {request : PaperExecutionRequest} {now : UTCDateTime}
    {record : PaperExecutionRecord}
    (h : s.executeOnce lookup policy ledgerPolicy request now = .success (record, s')) :
    (s' = s ∧ record.commandHash = request.command.commandHash ∧
        (lookup.getExecutionRecord request.command.intent.accountId
            request.command.intent.idempotencyKey = .success record ∨
          s.getExecutionRecord request.command.intent.accountId
            request.command.intent.idempotencyKey = .success record)) ∨
      lookup.lookupRecord request.command.intent = .success none ∧
      ∃ row held projection simulated s₁ final finalSequence,
        FreshExecution s policy ledgerPolicy request now row held projection simulated record s₁
          final finalSequence s' := by
  obtain ⟨found, hfound, h⟩ := Attempt.bind_eq_success.mp h
  cases found with
  | some existing =>
      simp only [Attempt.bind_eq_success, replayRecord_eq_success, Attempt.pure_eq] at h
      obtain ⟨_, ⟨hhash, -, rfl⟩, h⟩ := h
      cases h
      exact .inl ⟨rfl, hhash, .inl (lookupRecord_eq_some.mp hfound)⟩
  | none =>
      rcases executeLocked_eq_success h with ⟨hs, hrecord, hhash⟩ | hfresh
      · exact .inl ⟨hs, hhash, .inr hrecord⟩
      · exact .inr ⟨hfound, hfresh⟩

end

end StonksPaper
