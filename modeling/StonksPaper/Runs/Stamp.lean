import StonksPaper.Runs.Posting

/-!
# What the account sequence stamps

A batch and a posting move an account to its next sequence. An execution and a cancellation do not:
they give back what a reservation holds, under the sequence that it was taken at. So the sequence
fixes the settled amounts, and while it stays the reserved ones can only fall.
-/

namespace StonksPaper

open Chain
open scoped ExactArithmetic

/-- The row is the same, but that less may be reserved. -/
structure PaperCashProjectionRow.ReleasedTo (r r' : PaperCashProjectionRow) : Prop where
  same : r' = { r with reservedAmount := r'.reservedAmount }
  reserved : r'.reservedAmount ≤ r.reservedAmount

/-- The row is the same, but that less may be reserved. -/
structure PaperPositionProjectionRow.ReleasedTo (r r' : PaperPositionProjectionRow) : Prop where
  same : r' = { r with reservedQuantity := r'.reservedQuantity }
  reserved : r'.reservedQuantity ≤ r.reservedQuantity

theorem PaperCashProjectionRow.ReleasedTo.refl (r : PaperCashProjectionRow) : r.ReleasedTo r :=
  ⟨rfl, le_rfl⟩

theorem PaperCashProjectionRow.ReleasedTo.trans {a b c : PaperCashProjectionRow}
    (h : a.ReleasedTo b) (h' : b.ReleasedTo c) : a.ReleasedTo c := by
  refine ⟨?_, h'.reserved.trans h.reserved⟩
  rw [h'.same, h.same]

theorem PaperPositionProjectionRow.ReleasedTo.refl (r : PaperPositionProjectionRow) :
    r.ReleasedTo r := ⟨rfl, le_rfl⟩

theorem PaperPositionProjectionRow.ReleasedTo.trans {a b c : PaperPositionProjectionRow}
    (h : a.ReleasedTo b) (h' : b.ReleasedTo c) : a.ReleasedTo c := by
  refine ⟨?_, h'.reserved.trans h.reserved⟩
  rw [h'.same, h.same]

/-- The account's cash and positions are the same, row for row, but for what was released. -/
structure Released (s s' : Store) (accountId : AccountId) : Prop where
  cash : List.Forall₂ PaperCashProjectionRow.ReleasedTo (s.cashOf accountId) (s'.cashOf accountId)
  positions : List.Forall₂ PaperPositionProjectionRow.ReleasedTo (s.positionsOf accountId)
    (s'.positionsOf accountId)

/-- The account's cash and positions are the same, row for row. -/
structure SameBalances (s s' : Store) (accountId : AccountId) : Prop where
  cash : s'.cashOf accountId = s.cashOf accountId
  positions : s'.positionsOf accountId = s.positionsOf accountId

instance (s s' : Store) (accountId : AccountId) : Decidable (SameBalances s s' accountId) :=
  decidable_of_iff (s'.cashOf accountId = s.cashOf accountId ∧
    s'.positionsOf accountId = s.positionsOf accountId) ⟨fun h => ⟨h.1, h.2⟩, fun h => ⟨h.1, h.2⟩⟩

theorem SameBalances.refl (s : Store) (accountId : AccountId) : SameBalances s s accountId :=
  ⟨rfl, rfl⟩

theorem SameBalances.trans {s t u : Store} {accountId : AccountId} (h : SameBalances s t accountId)
    (h' : SameBalances t u accountId) : SameBalances s u accountId :=
  ⟨h'.cash.trans h.cash, h'.positions.trans h.positions⟩

theorem SameBalances.released {s s' : Store} {accountId : AccountId}
    (h : SameBalances s s' accountId) : Released s s' accountId := by
  refine ⟨?_, ?_⟩
  · rw [h.cash]
    exact List.forall₂_same.mpr fun r _ => .refl r
  · rw [h.positions]
    exact List.forall₂_same.mpr fun r _ => .refl r

theorem forall₂_trans {α : Type} {R : α → α → Prop} (htrans : ∀ a b c, R a b → R b c → R a c)
    {xs ys zs : List α} (h : List.Forall₂ R xs ys) (h' : List.Forall₂ R ys zs) :
    List.Forall₂ R xs zs := by
  induction h generalizing zs with
  | nil => exact h'
  | cons hhead _ ih =>
      cases h' with
      | cons hhead' htail' => exact .cons (htrans _ _ _ hhead hhead') (ih htail')

theorem Released.trans {s t u : Store} {accountId : AccountId} (h : Released s t accountId)
    (h' : Released t u accountId) : Released s u accountId :=
  ⟨forall₂_trans (fun _ _ _ => .trans) h.cash h'.cash,
    forall₂_trans (fun _ _ _ => .trans) h.positions h'.positions⟩

/-- The account stays, and its sequence rises or its rows are related. -/
def Stamped (R : Store → Store → AccountId → Prop) (s s' : Store) (accountId : AccountId) : Prop :=
  ∀ row, s.account accountId = some row → ∃ row', s'.account accountId = some row' ∧
    (row.aggregateSequence < row'.aggregateSequence ∨
      row'.aggregateSequence = row.aggregateSequence ∧ R s s' accountId)

theorem Stamped.of_account {R : Store → Store → AccountId → Prop} {s s' : Store}
    {accountId : AccountId} (haccount : s'.account accountId = s.account accountId)
    (h : R s s' accountId) : Stamped R s s' accountId :=
  fun row hrow => ⟨row, haccount.trans hrow, .inr ⟨rfl, h⟩⟩

theorem Stamped.refl (s : Store) (accountId : AccountId) : Stamped SameBalances s s accountId :=
  .of_account rfl (.refl s accountId)

theorem Stamped.trans {R : Store → Store → AccountId → Prop} {s t u : Store}
    {accountId : AccountId}
    (htrans : R s t accountId → R t u accountId → R s u accountId)
    (h : Stamped R s t accountId) (h' : Stamped R t u accountId) : Stamped R s u accountId := by
  intro row hrow
  obtain ⟨row', hrow', hmid⟩ := h row hrow
  obtain ⟨row'', hrow'', hlast⟩ := h' row' hrow'
  refine ⟨row'', hrow'', ?_⟩
  rcases hmid with hlt | ⟨heq, hrelated⟩
  · rcases hlast with hlt' | ⟨heq', -⟩
    · exact .inl (hlt.trans hlt')
    · exact .inl (heq' ▸ hlt)
  · rcases hlast with hlt' | ⟨heq', hrelated'⟩
    · exact .inl (heq ▸ hlt')
    · exact .inr ⟨heq'.trans heq, htrans hrelated hrelated'⟩

theorem Stamped.released {s s' : Store} {accountId : AccountId}
    (h : Stamped SameBalances s s' accountId) : Stamped Released s s' accountId := by
  intro row hrow
  obtain ⟨row', hrow', hlt | ⟨heq, hsame⟩⟩ := h row hrow
  · exact ⟨row', hrow', .inl hlt⟩
  · exact ⟨row', hrow', .inr ⟨heq, hsame.released⟩⟩

theorem Stamped.related {R : Store → Store → AccountId → Prop} {s s' : Store}
    {accountId : AccountId} {row row' : PaperAccountRow} (h : Stamped R s s' accountId)
    (hrow : s.account accountId = some row) (hrow' : s'.account accountId = some row')
    (hsequence : row'.aggregateSequence = row.aggregateSequence) : R s s' accountId := by
  obtain ⟨found, hfound, hlast⟩ := h row hrow
  have hsame : found = row' := Option.some.inj (hfound.symm.trans hrow')
  rcases hlast with hlt | ⟨-, hrelated⟩
  · rw [hsame, hsequence] at hlt
    exact absurd hlt (lt_irrefl _)
  · exact hrelated

/-- The operations that give back what a reservation holds. -/
def Operation.Releases : Operation → Prop
  | .applyPaperExecution .. => True
  | .executeReferencePaper .. => True
  | .activate .. => True
  | .failReconciliation .. => True
  | _ => False

section

variable [Hashing] {s s' : Store} {accountId : AccountId}

/-! ## What keeps the sequence -/

omit [Hashing] in
theorem released_givenBack {r : AccountReservation} {amount : Decimal} (hamount : 0 ≤ amount) :
    Released s (s.givenBack r amount) accountId := by
  constructor
  · show List.Forall₂ _ (s.cash.filter (·.accountId = accountId))
      ((r.giveBackCash amount s.cash).filter (·.accountId = accountId))
    unfold AccountReservation.giveBackCash
    cases r.kind with
    | cash =>
        have hkeep : ∀ row : PaperCashProjectionRow, ReleasableCash r amount row →
            ({ row with reservedAmount := row.reservedAmount - amount }.accountId = accountId ↔
              row.accountId = accountId) := fun _ _ => Iff.rfl
        simp only
        rw [Table.filter_update hkeep]
        exact Table.forall₂_update .refl fun row _ => ⟨rfl, sub_le_self _ hamount⟩
    | position => exact List.forall₂_same.mpr fun row _ => .refl row
  · show List.Forall₂ _ (s.positions.filter (·.accountId = accountId))
      ((r.giveBackPosition amount s.positions).filter (·.accountId = accountId))
    unfold AccountReservation.giveBackPosition
    cases r.kind with
    | cash => exact List.forall₂_same.mpr fun row _ => .refl row
    | position =>
        have hkeep : ∀ row : PaperPositionProjectionRow, ReleasablePosition r amount row →
            ({ row with reservedQuantity := row.reservedQuantity - amount }.accountId = accountId ↔
              row.accountId = accountId) := fun _ _ => Iff.rfl
        simp only
        rw [Table.filter_update hkeep]
        exact Table.forall₂_update .refl fun row _ => ⟨rfl, sub_le_self _ hamount⟩

theorem ExecutionPersisted.stamped {command : ExecutionCommand} {outcome : PaperExecutionOutcome}
    {held : AccountReservation} (h : ExecutionPersisted s command outcome held s') :
    Stamped Released s s' accountId := by
  have hgiven : Released (s.mutated held outcome.finalReservation outcome.reservationMutations)
      ((s.mutated held outcome.finalReservation outcome.reservationMutations).givenBack held
        (held.remainingAmount - outcome.finalReservation.remainingAmount)) accountId :=
    released_givenBack h.decrease
  rw [h.state]
  exact .of_account rfl ⟨hgiven.cash, hgiven.positions⟩

theorem OrderCancelled.stamped {intent : OrderIntent} {at_ : UTCDateTime}
    {before : AccountReservation} {changed : ReservationMutation} {created : OrderEvent}
    (h : OrderCancelled s intent at_ before changed created s') :
    Stamped Released s s' accountId := by
  have hremaining : 0 ≤ before.remainingAmount :=
    (AccountReservation.validate_iff.mp h.before_valid).remaining_nonneg
  have hgiven : Released (s.mutated before changed.reservation [changed])
      ((s.mutated before changed.reservation [changed]).givenBack before before.remainingAmount)
      accountId := released_givenBack hremaining
  rw [h.state]
  exact .of_account rfl ⟨hgiven.cash, hgiven.positions⟩

omit [Hashing] in
theorem SameTrading.stamped (h : SameTrading s s') : Stamped SameBalances s s' accountId := by
  rw [h]
  exact .of_account rfl ⟨rfl, rfl⟩

omit [Hashing] in
/-- The rows of a new account do not show in a selection by another. -/
theorem stamped_registered {snapshot : AccountPortfolioSnapshot} {baseCurrency : Currency}
    {now : UTCDateTime} (hfresh : Table.Fresh (·.accountId) snapshot.accountId s.accounts) :
    Stamped SameBalances s (s.registered snapshot baseCurrency now) accountId := by
  intro row hrow
  have hother : snapshot.accountId ≠ accountId := by
    intro heq
    exact hfresh row (Table.mem_of_get hrow) ((Table.key_of_get hrow).trans heq.symm)
  refine ⟨row, Table.get_concat_of_some hrow, .inr ⟨rfl, ?_, ?_⟩⟩
  · refine filter_append_other fun r hr => ?_
    obtain ⟨b, -, rfl⟩ := List.mem_map.mp hr
    exact hother
  · refine filter_append_other fun r hr => ?_
    obtain ⟨b, -, rfl⟩ := List.mem_map.mp hr
    exact hother

/-! ## What advances the sequence -/

omit [Hashing] in
/-- An account whose row advances is at a later sequence; the others must be as they were. -/
theorem Stamped.of_advanced {row new : PaperAccountRow}
    (haccounts : s'.accounts = Table.update (·.accountId = row.accountId) (fun _ => new) s.accounts)
    (hrow : s.account row.accountId = some row) (hid : new.accountId = row.accountId)
    (hadvanced : row.aggregateSequence < new.aggregateSequence)
    (hothers : accountId ≠ row.accountId → SameBalances s s' accountId) :
    Stamped SameBalances s s' accountId := by
  intro found hfound
  have hkey : found.accountId = accountId := Table.key_of_get hfound
  have hget : s'.account accountId =
      some (if found.accountId = row.accountId then new else found) := by
    have hsame : ∀ r : PaperAccountRow, r.accountId = row.accountId →
        new.accountId = r.accountId := fun r hr => hid.trans hr.symm
    unfold Store.account at hfound ⊢
    rw [haccounts, Table.get_update hsame, hfound]
    rfl
  refine ⟨_, hget, ?_⟩
  by_cases hof : found.accountId = row.accountId
  · have hsame : found = row := by
      rw [← hkey, hof, hrow] at hfound
      exact (Option.some.inj hfound).symm
    rw [if_pos hof, hsame]
    exact .inl hadvanced
  · rw [if_neg hof]
    exact .inr ⟨rfl, hothers fun h => hof (hkey.trans h)⟩

theorem BatchCreated.stamped {ordered : List ReservationOrderPair} {now : UTCDateTime}
    {row : PaperAccountRow} {event : PaperAccountEvent}
    (h : BatchCreated s ordered now row event s') : Stamped SameBalances s s' accountId := by
  have haccounts : s'.accounts = Table.update (·.accountId = row.accountId)
      (fun _ => { row with aggregateSequence := row.aggregateSequence + 1, updatedAt := now })
      s.accounts := by
    rw [h.state]
    rfl
  refine .of_advanced haccounts h.account rfl (Nat.lt_succ_self _) fun hother => ?_
  have hof : ∀ r ∈ ordered.map (·.1.reservation), r.accountId ≠ accountId := by
    intro r hr
    obtain ⟨pair, hpair, rfl⟩ := List.mem_map.mp hr
    rw [h.account_of pair hpair]
    exact hother.symm
  rw [h.state]
  refine ⟨(foldl_other (fun rows r => holdCash_holds r rows) hof).trans ?_,
    (foldl_other (fun rows r => holdPosition_holds r rows) hof).trans ?_⟩
  · exact Table.filter_update_of_disjoint (fun r _ => Iff.rfl) fun r hr hheld =>
      hother (hr.symm.trans hheld)
  · exact Table.filter_update_of_disjoint (fun r _ => Iff.rfl) fun r hr hheld =>
      hother (hr.symm.trans hheld)

theorem JournalPosted.stamped {transaction : JournalTransaction} {row : PaperAccountRow}
    {before after : LedgerProjection} {event : PaperAccountEvent} {now : UTCDateTime}
    (hrow : s.account row.accountId = some row)
    (h : JournalPosted s transaction row before after event now s') :
    Stamped SameBalances s s' accountId := by
  have haccounts : s'.accounts = Table.update (·.accountId = row.accountId)
      (fun _ => row.posted transaction now) s.accounts := by
    rw [h.state]
    rfl
  refine .of_advanced haccounts hrow rfl (Nat.lt_succ_self _) fun hother => ?_
  rw [h.state]
  refine ⟨(filter_append_other fun r hr => ?_).trans ?_,
    (filter_append_other fun r hr => ?_).trans ?_⟩
  · obtain ⟨item, -, rfl⟩ := List.mem_map.mp hr
    exact hother.symm
  · exact Table.filter_update_of_disjoint (fun r _ => Iff.rfl) fun r hr hheld =>
      hother (hr.symm.trans hheld)
  · obtain ⟨item, -, rfl⟩ := List.mem_map.mp hr
    exact hother.symm
  · exact Table.filter_update_of_disjoint (fun r _ => Iff.rfl) fun r hr hheld =>
      hother (hr.symm.trans hheld)

/-! ## Runs -/

theorem Effect.stamped {O : Permission} (h : Effect O s s') : Stamped Released s s' accountId := by
  cases h with
  | registered genesis fresh openingFresh readable => exact (stamped_registered fresh).released
  | targeted target => exact .of_account rfl (SameBalances.released ⟨rfl, rfl⟩)
  | decided decision => exact .of_account rfl (SameBalances.released ⟨rfl, rfl⟩)
  | batch created => exact created.stamped.released
  | executed permitted persisted => exact persisted.stamped
  | posted checked posted =>
      have hid := checked.accountIds.1
      exact (posted.stamped (hid ▸ checked.account)).released
  | cancelled stored cancelled => exact cancelled.stamped
  | operated operated => exact operated.same.stamped.released

theorem Effects.stamped {O : Permission} (h : Effects O s s') : Stamped Released s s' accountId :=
  h.invariant (I := fun s' => Stamped Released s s' accountId)
    (fun _ _ heffect hs => hs.trans .trans heffect.stamped) (Stamped.refl s accountId).released

omit [Hashing] in
theorem stamped_kept {α : Type} {x : Call (α × Store)}
    (h : ∀ a s', x = .success (a, s') → Stamped SameBalances s s' accountId) :
    Stamped SameBalances s (s.kept x) accountId :=
  kept_invariant (R := fun s s' => Stamped SameBalances s s' accountId) (.refl s accountId) h

/-- An operation that releases nothing moves the sequence with every change of a balance. -/
theorem stamped_after {w : World} {now : UTCDateTime} {op : Operation} (hop : ¬ op.Releases) :
    Stamped SameBalances w.store (op.after w now) accountId := by
  cases op with
  | registerAccount =>
      refine stamped_kept fun _ _ h => ?_
      rcases registerAccount_eq_success h with rfl | ⟨rfl, -, -, hfresh, -, -⟩
      · exact .refl _ _
      · exact stamped_registered hfresh
  | saveTarget =>
      refine stamped_kept fun _ _ h => ?_
      rcases saveTarget_eq_success h with rfl | rfl
      · exact .refl _ _
      · exact .of_account rfl ⟨rfl, rfl⟩
  | saveRiskDecision =>
      refine stamped_kept fun _ _ h => ?_
      rcases saveRiskDecision_eq_success h with rfl | rfl
      · exact .refl _ _
      · exact .of_account rfl ⟨rfl, rfl⟩
  | createReservationOrders =>
      refine stamped_kept fun _ _ h => ?_
      rcases createReservationOrders_eq_success h with rfl | ⟨row, event, hcreated⟩
      · exact .refl _ _
      · exact hcreated.stamped
  | append =>
      refine stamped_kept fun _ _ h => ?_
      rcases (append_eq_success h).2 with
        ⟨rfl, -⟩ | ⟨row, before, after, fill, event, hchecked, hposted⟩
      · exact .refl _ _
      · have hid := hchecked.accountIds.1
        exact hposted.stamped (hid ▸ hchecked.account)
  | recordReconciliation =>
      exact stamped_kept fun _ _ h => (operated_recordReconciliation h).same.stamped
  | completeResume =>
      exact stamped_kept fun _ _ h => (operated_completeResume h).same.stamped
  | rejectResume =>
      exact stamped_kept fun _ _ h => (operated_rejectResume h).same.stamped
  | applyPaperExecution => exact absurd trivial hop
  | executeReferencePaper => exact absurd trivial hop
  | activate => exact absurd trivial hop
  | failReconciliation => exact absurd trivial hop

theorem stamped_run {w : World} {ops : List Timed} (hops : ∀ op ∈ ops, ¬ op.1.Releases) :
    Stamped SameBalances w.store (Run.run World.step w ops).store accountId := by
  refine Run.Meets.invariant (I := fun w' : World =>
    Stamped SameBalances w.store w'.store accountId)
    (C := fun _ op => ¬ op.1.Releases) (fun w' op hw hop => ?_) (.refl _ _)
    (Run.meets_of_forall hops)
  exact hw.trans .trans (stamped_after hop)

/-- In every run, a later state of an account at the same sequence has the same cash and positions
as an earlier one and no more of them reserved. Where nothing was released they are equal. -/
theorem sequence_stamps_balances (at_ : UTCDateTime) (ops later : List Timed)
    (accountId : AccountId) (row row' : PaperAccountRow)
    (hrow : (World.reached at_ ops).store.account accountId = some row)
    (hrow' : (World.reached at_ (ops ++ later)).store.account accountId = some row')
    (hsequence : row'.aggregateSequence = row.aggregateSequence) :
    Released (World.reached at_ ops).store (World.reached at_ (ops ++ later)).store accountId ∧
      ((∀ op ∈ later, ¬ op.1.Releases) →
        SameBalances (World.reached at_ ops).store (World.reached at_ (ops ++ later)).store
          accountId) := by
  have hrun : World.reached at_ (ops ++ later) =
      Run.run World.step (World.reached at_ ops) later := Run.run_append ..
  rw [hrun] at hrow' ⊢
  constructor
  · exact (World.effects_run _ later).stamped.related hrow hrow' hsequence
  · intro hlater
    exact (stamped_run hlater).related hrow hrow' hsequence

end

/-! ## A switch that is activated under a reservation -/

section

open scoped CodeHashing

theorem stopped_releases :
    ∃ row ∈ (World.reached 0 (Scenario.opened {})).store.account "paper",
      ∃ row' ∈ (World.reached 0 (Scenario.opened {} ++ Scenario.stopped)).store.account "paper",
        row'.aggregateSequence = row.aggregateSequence ∧
          ¬ SameBalances (World.reached 0 (Scenario.opened {})).store
            (World.reached 0 (Scenario.opened {} ++ Scenario.stopped)).store "paper" := by
  decide +kernel

theorem sequence_stamps_balances_stopped :
    Released (World.reached 0 (Scenario.opened {})).store
      (World.reached 0 (Scenario.opened {} ++ Scenario.stopped)).store "paper" := by
  obtain ⟨row, hrow, row', hrow', hsequence, -⟩ := stopped_releases
  exact (sequence_stamps_balances 0 (Scenario.opened {}) Scenario.stopped "paper" row row' hrow
    hrow' hsequence).1

/-- The activation of the switch gives the reserved cash back under the same sequence. -/
theorem not_sequence_stamps_reserved :
    ¬ ∀ (at_ : UTCDateTime) (ops later : List Timed) (accountId : AccountId)
      (row row' : PaperAccountRow),
      (World.reached at_ ops).store.account accountId = some row →
      (World.reached at_ (ops ++ later)).store.account accountId = some row' →
      row'.aggregateSequence = row.aggregateSequence →
      SameBalances (World.reached at_ ops).store (World.reached at_ (ops ++ later)).store
        accountId := by
  intro h
  obtain ⟨row, hrow, row', hrow', hsequence, hchanged⟩ := stopped_releases
  exact hchanged (h 0 (Scenario.opened {}) Scenario.stopped "paper" row row' hrow hrow' hsequence)

end

end StonksPaper
