import StonksPaper.Effects.Trading

/-!
# What an execution writes

`apply_paper_execution` either finds the stored record or adds one, with the new events and fills
of its outcome and with the reservation moved to where the outcome leaves it.
-/

namespace StonksPaper

open Chain
open scoped ExactArithmetic

section

variable [Hashing] {s s' : Store}

/-! ## The reservation -/

omit [Hashing] in
@[simp] theorem AccountReservation.moved_reservationId (row current : AccountReservation) :
    (row.moved current).reservationId = row.reservationId := rfl

omit [Hashing] in
@[simp] theorem AccountReservation.moved_moved (row a b : AccountReservation) :
    (row.moved a).moved b = row.moved b := rfl

/-- The store after mutations of the stored reservation `held`, the last of which leaves `final`. -/
def Store.mutated (s : Store) (held final : AccountReservation)
    (mutations : List ReservationMutation) : Store :=
  { s with
    reservationEvents := s.reservationEvents ++ mutations.map (·.event)
    reservations :=
      if mutations = [] then s.reservations
      else Table.update (·.reservationId = held.reservationId) (fun _ => held.moved final)
        s.reservations }

omit [Hashing] in
/-- One mutation after others is a longer list of them. -/
theorem Store.mutated_cons {held final : AccountReservation} {m : ReservationMutation}
    {ms : List ReservationMutation} (hnil : ms = [] → m.reservation = final) :
    (s.mutated held m.reservation [m]).mutated held final ms = s.mutated held final (m :: ms) := by
  by_cases hms : ms = []
  · subst hms
    simp [Store.mutated, hnil rfl]
  · have hlater : Table.update (·.reservationId = held.reservationId) (fun _ => held.moved final)
        (Table.update (·.reservationId = held.reservationId) (fun _ => held.moved m.reservation)
          s.reservations) =
        Table.update (·.reservationId = held.reservationId) (fun _ => held.moved final)
          s.reservations := Table.update_update_const rfl
    simp only [Store.mutated, hms, if_false, List.cons_ne_nil, List.map_cons, List.map_nil,
      List.append_assoc, List.singleton_append]
    rw [hlater]

omit [Hashing] in
theorem applyMutation_eq_success {before row previous : AccountReservation}
    {m : ReservationMutation} {after : ReservationProgress}
    (hrow : ∃ r, row = before.moved r)
    (h : applyMutation before (s, row, previous) m = .success after) :
    after = (s.mutated before m.reservation [m], before.moved m.reservation, m.reservation) ∧
      MutationApplies before previous m ∧ s.AdmitsReservationEvent m.event := by
  simp only [applyMutation, Attempt.bind_eq_success, failUnless_eq_success, Attempt.pure_eq,
    Store.insertReservationEvent, Store.updateReservation, write_eq_success] at h
  obtain ⟨_, happlies, s₁, ⟨hadmits, rfl⟩, s₂, ⟨-, rfl⟩, h⟩ := h
  obtain ⟨r, rfl⟩ := hrow
  cases h
  exact ⟨rfl, happlies, hadmits⟩

omit [Hashing] in
/-- The loop over the mutations leaves the last one's reservation. -/
theorem applyMutation_all {before row previous : AccountReservation}
    {mutations : List ReservationMutation} {after : ReservationProgress}
    (hrow : ∃ r, row = before.moved r)
    (h : mutations.foldlM (applyMutation before) (s, row, previous) = .success after) :
    after.1 = s.mutated before after.2.2 mutations ∧
      after.2.2 = endState (·.reservation) previous mutations := by
  induction mutations generalizing s row previous with
  | nil =>
      obtain rfl : (s, row, previous) = after := by simpa using h
      exact ⟨by simp [Store.mutated], rfl⟩
  | cons m ms ih =>
      rw [List.foldlM_cons] at h
      obtain ⟨progress, hfirst, hrest⟩ := Attempt.bind_eq_success.mp h
      obtain ⟨rfl, -, -⟩ := applyMutation_eq_success hrow hfirst
      obtain ⟨hstate, hlast⟩ := ih ⟨_, rfl⟩ hrest
      refine ⟨?_, hlast⟩
      rw [hstate]
      refine Store.mutated_cons fun hnil => ?_
      rw [hlast, hnil]
      rfl

/-- The cash rows once `amount` of the reservation is given back. -/
def AccountReservation.giveBackCash (r : AccountReservation) (amount : Decimal)
    (rows : List PaperCashProjectionRow) : List PaperCashProjectionRow :=
  match r.kind with
  | .cash => Table.update (ReleasableCash r amount)
      (fun row => { row with reservedAmount := row.reservedAmount - amount }) rows
  | .position => rows

/-- The position rows once `amount` of the reservation is given back. -/
def AccountReservation.giveBackPosition (r : AccountReservation) (amount : Decimal)
    (rows : List PaperPositionProjectionRow) : List PaperPositionProjectionRow :=
  match r.kind with
  | .cash => rows
  | .position => Table.update (ReleasablePosition r amount)
      (fun row => { row with reservedQuantity := row.reservedQuantity - amount }) rows

/-- The store once `amount` of the reservation is given back. -/
def Store.givenBack (s : Store) (r : AccountReservation) (amount : Decimal) : Store :=
  { s with
    cash := r.giveBackCash amount s.cash
    positions := r.giveBackPosition amount s.positions }

/-- Some row can give the amount back. -/
def Releasable (s : Store) (r : AccountReservation) (amount : Decimal) : Prop :=
  match r.kind with
  | .cash => ∃ row ∈ s.cash, ReleasableCash r amount row
  | .position => ∃ row ∈ s.positions, ReleasablePosition r amount row

omit [Hashing] in
theorem Store.givenBack_zero {r : AccountReservation} : s.givenBack r 0 = s := by
  unfold Store.givenBack AccountReservation.giveBackCash AccountReservation.giveBackPosition
  have hcash : Table.update (ReleasableCash r 0)
      (fun row => { row with reservedAmount := row.reservedAmount - 0 }) s.cash = s.cash :=
    Table.update_of_fixed fun row _ _ => by simp
  have hposition : Table.update (ReleasablePosition r 0)
      (fun row => { row with reservedQuantity := row.reservedQuantity - 0 }) s.positions =
        s.positions := Table.update_of_fixed fun row _ _ => by simp
  cases r.kind with
  | cash => simp only [hcash]
  | position => simp only [hposition]

omit [Hashing] in
theorem releaseReserved_eq_success {r : AccountReservation} {amount : Decimal} {message : String}
    (h : s.releaseReserved r amount message = .success s') :
    Releasable s r amount ∧ s' = s.givenBack r amount := by
  unfold Store.releaseReserved at h
  unfold Releasable Store.givenBack AccountReservation.giveBackCash
    AccountReservation.giveBackPosition
  cases hkind : r.kind <;>
    simp only [hkind, Attempt.bind_eq_success, failUnless_eq_success, Store.updateCash,
      Store.updatePositions, write_eq_success] at h ⊢
  all_goals
    obtain ⟨_, hreleasable, -, rfl⟩ := h
    exact ⟨hreleasable, rfl⟩

omit [Hashing] in
theorem releaseProjection_eq_success {r : AccountReservation} {decrease : Decimal}
    (h : s.releaseProjection r decrease = .success s') : s' = s.givenBack r decrease := by
  unfold Store.releaseProjection at h
  split at h
  · rename_i hzero
    cases h
    rw [hzero, Store.givenBack_zero]
  · exact (releaseReserved_eq_success h).2

omit [Hashing] in
/-- The reservation of an outcome is stored and what it gives up is given back. -/
theorem applyReservation_eq_success {before : AccountReservation}
    {outcome : PaperExecutionOutcome} (h : s.applyReservation before outcome = .success s') :
    s' = (s.mutated before outcome.finalReservation outcome.reservationMutations).givenBack before
        (before.remainingAmount - outcome.finalReservation.remainingAmount) ∧
      (outcome.reservationMutations = [] → outcome.finalReservation = before) ∧
      0 ≤ before.remainingAmount - outcome.finalReservation.remainingAmount := by
  unfold Store.applyReservation at h
  split at h
  · rename_i hnil
    simp only [Attempt.bind_eq_success, failUnless_eq_success, Attempt.pure_eq] at h
    obtain ⟨_, hfinal, h⟩ := h
    cases h
    refine ⟨?_, fun _ => hfinal, by simp [hfinal]⟩
    simp [hnil, hfinal, Store.givenBack_zero, Store.mutated]
  · rename_i hsome
    simp only [Attempt.bind_eq_success, failUnless_eq_success] at h
    obtain ⟨⟨s₁, row, previous⟩, hloop, _, hfinal, _, hdecrease, h⟩ := h
    obtain ⟨hstate, -⟩ := applyMutation_all ⟨before, rfl⟩ hloop
    subst hfinal
    refine ⟨?_, fun hnil => absurd hnil hsome, hdecrease⟩
    rw [releaseProjection_eq_success h, hstate]

/-! ## The outcome -/

/-- What an execution that was persisted had checked, and the store it left. -/
structure ExecutionPersisted (s : Store) (command : ExecutionCommand)
    (outcome : PaperExecutionOutcome) (held : AccountReservation) (s' : Store) : Prop where
  order : s.intent command.intent.intentId = some command.intent
  reserved : s.reservation command.intent.reservationId = some held
  order_valid : command.intent.validate = .success ()
  held_valid : held.validate = .success ()
  identity : IdentityHolds command outcome command.intent held
  events_kept : s.orderEventsOf command.intent.intentId <+: outcome.orderEvents
  fills_kept : s.fillsOf command.intent.intentId <+: outcome.receipt.fills
  mutated : s.applyReservation held outcome =
    .success ((s.mutated held outcome.finalReservation outcome.reservationMutations).givenBack held
      (held.remainingAmount - outcome.finalReservation.remainingAmount))
  final : outcome.reservationMutations = [] → outcome.finalReservation = held
  decrease : 0 ≤ held.remainingAmount - outcome.finalReservation.remainingAmount
  fills_unique : Table.Unique (·.fillId) s.fills → Table.Unique (·.fillId) s'.fills
  record_valid : (executionRecord command outcome).validate = .success ()
  receipt_fresh : Table.Fresh (fun r => (r.accountId, r.idempotencyKey))
    (command.intent.accountId, command.intent.idempotencyKey) s.receipts
  state : s' =
    { (s.mutated held outcome.finalReservation outcome.reservationMutations).givenBack held
        (held.remainingAmount - outcome.finalReservation.remainingAmount) with
      orderEvents := s.orderEvents ++
        outcome.orderEvents.drop (s.orderEventsOf command.intent.intentId).length
      fills := s.fills ++ outcome.receipt.fills.drop (s.fillsOf command.intent.intentId).length
      receipts := s.receipts ++ [executionRecord command outcome] }

theorem persistExecution_eq_success {command : ExecutionCommand} {outcome : PaperExecutionOutcome}
    {record : PaperExecutionRecord}
    (h : s.persistExecution command outcome = .success (record, s')) :
    record = executionRecord command outcome ∧
      ∃ held, ExecutionPersisted s command outcome held s' := by
  simp only [Store.persistExecution, Attempt.bind_eq_success, orFail_eq_success,
    integrityChecked_eq_success, failUnless_eq_success, modelValidate_eq_success, suffix,
    Store.requiredEvents, Store.listFills, Attempt.pure_eq] at h
  obtain ⟨order, horder, held, hheld, _, hvalid, _, hheldValid, _, hidentity, _, ⟨_, -, h⟩, h'⟩ := h
  cases h
  obtain ⟨_, ⟨_, -, h⟩, h'⟩ := h'
  cases h
  obtain ⟨_, ⟨_, hevents, h⟩, h'⟩ := h'
  cases h
  obtain ⟨_, ⟨_, hfills, h⟩, h'⟩ := h'
  cases h
  obtain ⟨s₁, happly, s₂, hinsertEvents, s₃, hinsertFills, _, ⟨hrecord, rfl⟩, s₄, hreceipt, h⟩ := h'
  cases h
  obtain rfl : command.intent = order := hidentity.1
  obtain ⟨rfl, hfinal, hdecrease⟩ := applyReservation_eq_success happly
  obtain rfl := insertOrderEvent_all hinsertEvents
  have hunique := insertFill_unique hinsertFills
  obtain rfl := insertFill_all hinsertFills
  obtain ⟨⟨-, hfresh, -⟩, rfl⟩ := write_eq_success.mp hreceipt
  refine ⟨rfl, held, ?_⟩
  exact
    { order := horder
      reserved := hheld
      order_valid := hvalid
      held_valid := hheldValid
      identity := hidentity
      events_kept := hevents
      fills_kept := hfills
      mutated := happly
      final := hfinal
      decrease := hdecrease
      fills_unique := hunique
      record_valid := hrecord
      receipt_fresh := hfresh
      state := rfl }

/-- An execution finds its record, or adds one at the expected account sequence. -/
theorem applyPaperExecution_eq_success {command : ExecutionCommand}
    {outcome : PaperExecutionOutcome} {expected : ℕ} {record : PaperExecutionRecord}
    (h : s.applyPaperExecution command outcome expected = .success (record, s')) :
    (s' = s ∧ s.receiptFor command.intent.accountId command.intent.idempotencyKey = some record ∧
        record.commandHash = command.commandHash) ∨
      record = executionRecord command outcome ∧
      s.receiptFor command.intent.accountId command.intent.idempotencyKey = none ∧
      (∃ row, s.account command.intent.accountId = some row ∧ row.aggregateSequence = expected) ∧
      ∃ held, ExecutionPersisted s command outcome held s' := by
  simp only [Store.applyPaperExecution, mutation_eq_success, Attempt.bind_eq_success,
    orFail_eq_success] at h
  obtain ⟨row, hrow, h⟩ := h
  cases hreceipt : s.receiptFor command.intent.accountId command.intent.idempotencyKey with
  | some existing =>
      simp only [hreceipt, Attempt.bind_eq_success, failUnless_eq_success, recordFromRow,
        integrityChecked_eq_success, modelValidate_eq_success, Attempt.pure_eq] at h
      obtain ⟨_, ⟨_, -, -, rfl⟩, _, hhash, h⟩ := h
      cases h
      exact .inl ⟨rfl, rfl, hhash⟩
  | none =>
      simp only [hreceipt, Attempt.bind_eq_success, failUnless_eq_success] at h
      obtain ⟨_, hsequence, h⟩ := h
      obtain ⟨hrecord, hpersisted⟩ := persistExecution_eq_success h
      exact .inr ⟨hrecord, rfl, ⟨row, hrow, hsequence⟩, hpersisted⟩

end

end StonksPaper
