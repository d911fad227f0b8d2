import StonksPaper.Effects.Step
import StonksPaper.Ledger.Balances

/-!
# The stored ledger refines the replay of the journal

`Refines` compares the rows of one account with what a replay of its journal over its opening says.
Every change of the store keeps it: a registration starts from the opening, a posted transaction
moves every row to the new replay, and all else leaves the settled parts of the rows alone.
-/

namespace StonksPaper

open Chain
open scoped ExactArithmetic

/-! ## Refinement -/

def PaperCashProjectionRow.settled (r : PaperCashProjectionRow) : Currency × Decimal × Decimal :=
  (r.currency, r.quantum, r.settledAmount)

def PaperPositionProjectionRow.settled (r : PaperPositionProjectionRow) :
    UUID × Decimal × Decimal := (r.instrumentId, r.quantum, r.quantity)

/-- The account's rows show what the replay of its journal says. -/
structure Refines [Hashing] (s : Store) (row : PaperAccountRow)
    (opening : AccountPortfolioSnapshot) (p : LedgerProjection) : Prop where
  opened : s.opening row.accountId = some opening
  replayed : replayJournal opening (s.journalOf row.accountId) = .success p
  head : row.ledgerSequence = p.ledgerSequence ∧ row.ledgerHash = p.ledgerHash
  ledger : ((s.ledgerOf row.accountId).map (·.balance)).Perm p.balances
  cash : ((s.cashOf row.accountId).map fun r => (r.currency, r.quantum)).Perm (cashQuantums p)
  cash_settled : ∀ r ∈ s.cashOf row.accountId, r.settledAmount = p.cash r.currency
  cash_current : ∀ r ∈ s.cashOf row.accountId, r.updatedSequence = row.aggregateSequence
  positions : ((s.positionsOf row.accountId).map fun r => (r.instrumentId, r.quantum)).Perm
    (positionQuantums p)
  positions_settled : ∀ r ∈ s.positionsOf row.accountId, r.quantity = p.position r.instrumentId
  positions_current : ∀ r ∈ s.positionsOf row.accountId, r.updatedSequence = row.aggregateSequence

/-- The settled parts of the account's rows, its journal and its opening are the same. -/
structure SettledAlike (s s' : Store) (accountId : AccountId) : Prop where
  opening : s'.opening accountId = s.opening accountId
  journal : s'.journalOf accountId = s.journalOf accountId
  ledger : s'.ledgerOf accountId = s.ledgerOf accountId
  cash : (s'.cashOf accountId).map (·.settled) = (s.cashOf accountId).map (·.settled)
  positions : (s'.positionsOf accountId).map (·.settled) = (s.positionsOf accountId).map (·.settled)

/-- The projections of the account are at the sequence. -/
def CurrentAt (s : Store) (accountId : AccountId) (sequence : ℕ) : Prop :=
  (∀ r ∈ s.cash, r.accountId = accountId → r.updatedSequence = sequence) ∧
    ∀ r ∈ s.positions, r.accountId = accountId → r.updatedSequence = sequence

variable [Hashing] {s s' : Store}

/-- Refinement depends on the settled parts of the rows and on their sequence. -/
theorem Refines.transfer {row row' : PaperAccountRow} {opening : AccountPortfolioSnapshot}
    {p : LedgerProjection} (h : Refines s row opening p) (halike : SettledAlike s s' row.accountId)
    (hid : row'.accountId = row.accountId)
    (hhead : row'.ledgerSequence = row.ledgerSequence ∧ row'.ledgerHash = row.ledgerHash)
    (hcurrent : CurrentAt s' row.accountId row'.aggregateSequence) : Refines s' row' opening p := by
  have hcash : ∀ r' ∈ s'.cashOf row.accountId, ∃ r ∈ s.cashOf row.accountId,
      r.settled = r'.settled := by
    intro r' hr'
    have hmem := List.mem_map_of_mem (f := PaperCashProjectionRow.settled) hr'
    rw [halike.cash] at hmem
    exact List.mem_map.mp hmem
  have hpositions : ∀ r' ∈ s'.positionsOf row.accountId, ∃ r ∈ s.positionsOf row.accountId,
      r.settled = r'.settled := by
    intro r' hr'
    have hmem := List.mem_map_of_mem (f := PaperPositionProjectionRow.settled) hr'
    rw [halike.positions] at hmem
    exact List.mem_map.mp hmem
  constructor
  · rw [hid, halike.opening]
    exact h.opened
  · rw [hid, halike.journal]
    exact h.replayed
  · exact ⟨hhead.1.trans h.head.1, hhead.2.trans h.head.2⟩
  · rw [hid, halike.ledger]
    exact h.ledger
  · have hkeys := congrArg (List.map fun x : Currency × Decimal × Decimal =>
        (x.1, x.2.1)) halike.cash
    rw [List.map_map, List.map_map] at hkeys
    rw [hid]
    exact (List.Perm.of_eq hkeys).trans h.cash
  · rw [hid]
    intro r' hr'
    obtain ⟨r, hr, heq⟩ := hcash r' hr'
    simp only [PaperCashProjectionRow.settled, Prod.mk.injEq] at heq
    rw [← heq.2.2, ← heq.1]
    exact h.cash_settled r hr
  · rw [hid]
    intro r' hr'
    obtain ⟨hmem, hof⟩ := List.mem_filter.mp hr'
    exact hcurrent.1 r' hmem (of_decide_eq_true hof)
  · have hkeys := congrArg (List.map fun x : UUID × Decimal × Decimal => (x.1, x.2.1))
      halike.positions
    rw [List.map_map, List.map_map] at hkeys
    rw [hid]
    exact (List.Perm.of_eq hkeys).trans h.positions
  · rw [hid]
    intro r' hr'
    obtain ⟨r, hr, heq⟩ := hpositions r' hr'
    simp only [PaperPositionProjectionRow.settled, Prod.mk.injEq] at heq
    rw [← heq.2.2, ← heq.1]
    exact h.positions_settled r hr
  · rw [hid]
    intro r' hr'
    obtain ⟨hmem, hof⟩ := List.mem_filter.mp hr'
    exact hcurrent.2 r' hmem (of_decide_eq_true hof)

omit [Hashing] in
theorem SettledAlike.trans {s t u : Store} {accountId : AccountId} (h : SettledAlike s t accountId)
    (h' : SettledAlike t u accountId) : SettledAlike s u accountId :=
  ⟨h'.opening.trans h.opening, h'.journal.trans h.journal, h'.ledger.trans h.ledger,
    h'.cash.trans h.cash, h'.positions.trans h.positions⟩

theorem Refines.current {row : PaperAccountRow} {opening : AccountPortfolioSnapshot}
    {p : LedgerProjection} (h : Refines s row opening p) :
    CurrentAt s row.accountId row.aggregateSequence := by
  constructor
  · intro r hr hof
    exact h.cash_current r (List.mem_filter.mpr ⟨hr, decide_eq_true hof⟩)
  · intro r hr hof
    exact h.positions_current r (List.mem_filter.mpr ⟨hr, decide_eq_true hof⟩)

/-- The account's rows, its journal and its opening are the same. -/
structure RowsAlike (s s' : Store) (accountId : AccountId) : Prop where
  opening : s'.opening accountId = s.opening accountId
  journal : s'.journalOf accountId = s.journalOf accountId
  ledger : s'.ledgerOf accountId = s.ledgerOf accountId
  cash : s'.cashOf accountId = s.cashOf accountId
  positions : s'.positionsOf accountId = s.positionsOf accountId

/-- Refinement of an account whose rows nothing touched. -/
theorem Refines.alike {row : PaperAccountRow} {opening : AccountPortfolioSnapshot}
    {p : LedgerProjection} (h : Refines s row opening p) (halike : RowsAlike s s' row.accountId) :
    Refines s' row opening p := by
  constructor
  · rw [halike.opening]
    exact h.opened
  · rw [halike.journal]
    exact h.replayed
  · exact h.head
  · rw [halike.ledger]
    exact h.ledger
  · rw [halike.cash]
    exact h.cash
  · rw [halike.cash]
    exact h.cash_settled
  · rw [halike.cash]
    exact h.cash_current
  · rw [halike.positions]
    exact h.positions
  · rw [halike.positions]
    exact h.positions_settled
  · rw [halike.positions]
    exact h.positions_current

/-! ## The store's invariant -/

/-- Every account's rows show the replay of its journal, and every row has an account. -/
structure LedgerKept (s : Store) : Prop where
  accounts_unique : Table.Unique (·.accountId) s.accounts
  cash_owned : ∀ r ∈ s.cash, ∃ row ∈ s.accounts, row.accountId = r.accountId
  positions_owned : ∀ r ∈ s.positions, ∃ row ∈ s.accounts, row.accountId = r.accountId
  ledger_owned : ∀ r ∈ s.ledger, ∃ row ∈ s.accounts, row.accountId = r.accountId
  journal_owned : ∀ t ∈ s.journal, ∃ row ∈ s.accounts, row.accountId = t.accountId
  refines : ∀ row ∈ s.accounts, ∃ opening p, Refines s row opening p

theorem ledgerKept_migrated {at_ : UTCDateTime} : LedgerKept (Store.migrated at_) := by
  constructor
  · exact Table.unique_nil
  all_goals
    intro r hr
    cases hr

/-- The rows of the account tables are the same up to what is held in reserve. -/
structure ReserveOnly (s s' : Store) : Prop where
  accounts : s'.accounts = s.accounts
  openings : s'.openings = s.openings
  journal : s'.journal = s.journal
  ledger : s'.ledger = s.ledger
  cash : ∃ f : PaperCashProjectionRow → PaperCashProjectionRow, s'.cash = s.cash.map f ∧
    ∀ r, (f r).accountId = r.accountId ∧ (f r).settled = r.settled ∧
      (f r).updatedSequence = r.updatedSequence
  positions : ∃ f : PaperPositionProjectionRow → PaperPositionProjectionRow,
    s'.positions = s.positions.map f ∧
    ∀ r, (f r).accountId = r.accountId ∧ (f r).settled = r.settled ∧
      (f r).updatedSequence = r.updatedSequence

omit [Hashing] in
theorem map_filter_map {α β κ : Type} [DecidableEq κ] {rows : List α} {f : α → α} {key : α → κ}
    {g : α → β} {k : κ} (hkey : ∀ r, key (f r) = key r) (hg : ∀ r, g (f r) = g r) :
    ((rows.map f).filter (key · = k)).map g = (rows.filter (key · = k)).map g := by
  rw [List.filter_map, List.map_map]
  have hsame : ((fun x => decide (key x = k)) ∘ f) = fun x => decide (key x = k) := by
    funext r
    simp [hkey]
  rw [hsame]
  exact List.map_congr_left fun r _ => hg r

/-- Holding more or less in reserve keeps the refinement. -/
theorem LedgerKept.reserveOnly (hk : LedgerKept s) (h : ReserveOnly s s') : LedgerKept s' := by
  obtain ⟨f, hcash, hf⟩ := h.cash
  obtain ⟨g, hpositions, hg⟩ := h.positions
  refine ⟨h.accounts ▸ hk.accounts_unique, ?_, ?_, ?_, ?_, ?_⟩
  · rw [hcash, h.accounts]
    intro r hr
    obtain ⟨r₀, hr₀, rfl⟩ := List.mem_map.mp hr
    rw [(hf r₀).1]
    exact hk.cash_owned r₀ hr₀
  · rw [hpositions, h.accounts]
    intro r hr
    obtain ⟨r₀, hr₀, rfl⟩ := List.mem_map.mp hr
    rw [(hg r₀).1]
    exact hk.positions_owned r₀ hr₀
  · rw [h.ledger, h.accounts]
    exact hk.ledger_owned
  · rw [h.journal, h.accounts]
    exact hk.journal_owned
  · intro row hrow
    rw [h.accounts] at hrow
    obtain ⟨opening, p, hrefines⟩ := hk.refines row hrow
    refine ⟨opening, p, hrefines.transfer ?_ rfl ⟨rfl, rfl⟩ ?_⟩
    · constructor
      · unfold Store.opening
        rw [h.openings]
      · unfold Store.journalOf
        rw [h.journal]
      · unfold Store.ledgerOf
        rw [h.ledger]
      · unfold Store.cashOf
        rw [hcash]
        exact map_filter_map (fun r => (hf r).1) fun r => (hf r).2.1
      · unfold Store.positionsOf
        rw [hpositions]
        exact map_filter_map (fun r => (hg r).1) fun r => (hg r).2.1
    · have hcurrent := hrefines.current
      constructor
      · rw [hcash]
        intro r hr hof
        obtain ⟨r₀, hr₀, rfl⟩ := List.mem_map.mp hr
        rw [(hf r₀).2.2]
        exact hcurrent.1 r₀ hr₀ ((hf r₀).1 ▸ hof)
      · rw [hpositions]
        intro r hr hof
        obtain ⟨r₀, hr₀, rfl⟩ := List.mem_map.mp hr
        rw [(hg r₀).2.2]
        exact hcurrent.2 r₀ hr₀ ((hg r₀).1 ▸ hof)

omit [Hashing] in
theorem ReserveOnly.of_eq (haccounts : s'.accounts = s.accounts)
    (hopenings : s'.openings = s.openings)
    (hjournal : s'.journal = s.journal) (hledger : s'.ledger = s.ledger) (hcash : s'.cash = s.cash)
    (hpositions : s'.positions = s.positions) : ReserveOnly s s' :=
  ⟨haccounts, hopenings, hjournal, hledger, ⟨id, by simpa using hcash, fun _ => ⟨rfl, rfl, rfl⟩⟩,
    ⟨id, by simpa using hpositions, fun _ => ⟨rfl, rfl, rfl⟩⟩⟩

omit [Hashing] in
/-- Giving an amount of a reservation back changes reserves only. -/
theorem reserveOnly_givenBack {r : AccountReservation} {amount : Decimal} :
    ReserveOnly s (s.givenBack r amount) := by
  refine ⟨rfl, rfl, rfl, rfl, ?_, ?_⟩
  · unfold Store.givenBack AccountReservation.giveBackCash
    cases r.kind with
    | cash =>
        refine ⟨_, rfl, fun row => ?_⟩
        split
        · exact ⟨rfl, rfl, rfl⟩
        · exact ⟨rfl, rfl, rfl⟩
    | position => exact ⟨id, by simp, fun _ => ⟨rfl, rfl, rfl⟩⟩
  · unfold Store.givenBack AccountReservation.giveBackPosition
    cases r.kind with
    | cash => exact ⟨id, by simp, fun _ => ⟨rfl, rfl, rfl⟩⟩
    | position =>
        refine ⟨_, rfl, fun row => ?_⟩
        split
        · exact ⟨rfl, rfl, rfl⟩
        · exact ⟨rfl, rfl, rfl⟩

omit [Hashing] in
theorem ReserveOnly.congr {t t' : Store} (h : ReserveOnly s t)
    (haccounts : t'.accounts = t.accounts)
    (hopenings : t'.openings = t.openings) (hjournal : t'.journal = t.journal)
    (hledger : t'.ledger = t.ledger) (hcash : t'.cash = t.cash)
    (hpositions : t'.positions = t.positions) : ReserveOnly s t' := by
  obtain ⟨h1, h2, h3, h4, h5, h6⟩ := h
  refine ⟨haccounts.trans h1, hopenings.trans h2, hjournal.trans h3, hledger.trans h4, ?_, ?_⟩
  · rwa [hcash]
  · rwa [hpositions]

theorem ExecutionPersisted.reserveOnly {command : ExecutionCommand}
    {outcome : PaperExecutionOutcome} {held : AccountReservation}
    (h : ExecutionPersisted s command outcome held s') : ReserveOnly s s' := by
  have hgiven : ReserveOnly (s.mutated held outcome.finalReservation outcome.reservationMutations)
      ((s.mutated held outcome.finalReservation outcome.reservationMutations).givenBack held
        (held.remainingAmount - outcome.finalReservation.remainingAmount)) := reserveOnly_givenBack
  have hsame : ReserveOnly s ((s.mutated held outcome.finalReservation
      outcome.reservationMutations).givenBack held
        (held.remainingAmount - outcome.finalReservation.remainingAmount)) :=
    ⟨hgiven.accounts, hgiven.openings, hgiven.journal, hgiven.ledger, hgiven.cash,
      hgiven.positions⟩
  rw [h.state]
  exact hsame.congr rfl rfl rfl rfl rfl rfl

theorem OrderCancelled.reserveOnly {intent : OrderIntent} {at_ : UTCDateTime}
    {before : AccountReservation} {changed : ReservationMutation} {created : OrderEvent}
    (h : OrderCancelled s intent at_ before changed created s') : ReserveOnly s s' := by
  have hgiven : ReserveOnly (s.mutated before changed.reservation [changed])
      ((s.mutated before changed.reservation [changed]).givenBack before before.remainingAmount) :=
    reserveOnly_givenBack
  have hsame : ReserveOnly s ((s.mutated before changed.reservation [changed]).givenBack before
      before.remainingAmount) :=
    ⟨hgiven.accounts, hgiven.openings, hgiven.journal, hgiven.ledger, hgiven.cash,
      hgiven.positions⟩
  rw [h.state]
  exact hsame.congr rfl rfl rfl rfl rfl rfl

omit [Hashing] in
theorem SameTrading.reserveOnly (h : SameTrading s s') : ReserveOnly s s' := by
  rw [h]
  exact .of_eq rfl rfl rfl rfl rfl rfl

/-! ## A batch -/

/-- A change of rows that keeps their settled parts and moves one account's rows to a sequence. -/
def Resequenced {R S : Type} (owner : R → AccountId) (settled : R → S) (updatedSequence : R → ℕ)
    (accountId : AccountId) (sequence : ℕ) (f : R → R) : Prop :=
  ∀ r, owner (f r) = owner r ∧ settled (f r) = settled r ∧
    updatedSequence (f r) = if owner r = accountId then sequence else updatedSequence r

def CashResequenced (accountId : AccountId) (sequence : ℕ)
    (f : PaperCashProjectionRow → PaperCashProjectionRow) : Prop :=
  ∀ r, (f r).accountId = r.accountId ∧ (f r).settled = r.settled ∧
    (f r).updatedSequence = if r.accountId = accountId then sequence else r.updatedSequence

def PositionsResequenced (accountId : AccountId) (sequence : ℕ)
    (f : PaperPositionProjectionRow → PaperPositionProjectionRow) : Prop :=
  ∀ r, (f r).accountId = r.accountId ∧ (f r).settled = r.settled ∧
    (f r).updatedSequence = if r.accountId = accountId then sequence else r.updatedSequence

/-- A reservation changes rows of its account alone: it keeps their settled parts and moves them to
its sequence. -/
def TakenFrom {R S : Type} (owner : R → AccountId) (settled : R → S) (updatedSequence : R → ℕ)
    (r : AccountReservation) (g : R → R) : Prop :=
  ∀ row, g row = row ∨ owner row = r.accountId ∧ owner (g row) = owner row ∧
    settled (g row) = settled row ∧ updatedSequence (g row) = r.accountAggregateSequence

omit [Hashing] in
theorem holdCash_holds (r : AccountReservation) (rows : List PaperCashProjectionRow) :
    ∃ g, r.holdCash rows = rows.map g ∧
      TakenFrom (·.accountId) PaperCashProjectionRow.settled (·.updatedSequence) r g := by
  unfold AccountReservation.holdCash
  cases r.kind with
  | position => exact ⟨id, (List.map_id _).symm, fun _ => .inl rfl⟩
  | cash =>
      refine ⟨_, rfl, fun row => ?_⟩
      split
      · rename_i hreservable
        exact .inr ⟨hreservable.1, rfl, rfl, rfl⟩
      · exact .inl rfl

omit [Hashing] in
theorem holdPosition_holds (r : AccountReservation) (rows : List PaperPositionProjectionRow) :
    ∃ g, r.holdPosition rows = rows.map g ∧
      TakenFrom (·.accountId) PaperPositionProjectionRow.settled (·.updatedSequence) r g := by
  unfold AccountReservation.holdPosition
  cases r.kind with
  | cash => exact ⟨id, (List.map_id _).symm, fun _ => .inl rfl⟩
  | position =>
      refine ⟨_, rfl, fun row => ?_⟩
      split
      · rename_i hreservable
        exact .inr ⟨hreservable.1, rfl, rfl, rfl⟩
      · exact .inl rfl

section holding

variable {R S : Type} {owner : R → AccountId} {settled : R → S} {updatedSequence : R → ℕ}
  {hold : List R → AccountReservation → List R} {reservations : List AccountReservation}
  {accountId : AccountId} {sequence : ℕ} {rows start : List R}

omit [Hashing] in
/-- The reservations of one account at one sequence leave its rows at that sequence. -/
theorem foldl_resequenced
    (hhold : ∀ rows r, ∃ g, hold rows r = rows.map g ∧ TakenFrom owner settled updatedSequence r g)
    (hof : ∀ r ∈ reservations, r.accountId = accountId ∧ r.accountAggregateSequence = sequence)
    (h : ∃ f, rows = start.map f ∧
      Resequenced owner settled updatedSequence accountId sequence f) :
    ∃ f, reservations.foldl hold rows = start.map f ∧
      Resequenced owner settled updatedSequence accountId sequence f := by
  induction reservations generalizing rows with
  | nil => exact h
  | cons r rs ih =>
      obtain ⟨f, rfl, hf⟩ := h
      obtain ⟨g, hg, hkept⟩ := hhold (start.map f) r
      obtain ⟨hid, hsequence⟩ := hof r (List.mem_cons_self ..)
      refine ih (fun r' hr' => hof r' (List.mem_cons_of_mem _ hr')) ⟨g ∘ f, ?_, fun row => ?_⟩
      · rw [hg, List.map_map]
      obtain ⟨h1, h2, h3⟩ := hf row
      rcases hkept (f row) with hsame | ⟨howner, h1', h2', h3'⟩
      · rw [Function.comp, hsame]
        exact ⟨h1, h2, h3⟩
      · have hrow : owner row = accountId := (h1.symm.trans howner).trans hid
        rw [if_pos hrow]
        exact ⟨h1'.trans h1, h2'.trans h2, h3'.trans hsequence⟩

omit [Hashing] in
/-- The reservations of other accounts leave the account's rows. -/
theorem foldl_other
    (hhold : ∀ rows r, ∃ g, hold rows r = rows.map g ∧ TakenFrom owner settled updatedSequence r g)
    (hof : ∀ r ∈ reservations, r.accountId ≠ accountId) :
    (reservations.foldl hold rows).filter (owner · = accountId) =
      rows.filter (owner · = accountId) := by
  induction reservations generalizing rows with
  | nil => rfl
  | cons r rs ih =>
      obtain ⟨g, hg, hkept⟩ := hhold rows r
      have howner : ∀ row, owner (g row) = owner row := by
        intro row
        rcases hkept row with hsame | ⟨-, hsame, -⟩
        · rw [hsame]
        · exact hsame
      rw [List.foldl_cons, ih fun r' hr' => hof r' (List.mem_cons_of_mem _ hr'), hg,
        List.filter_map]
      have hsame : (fun row => decide (owner row = accountId)) ∘ g =
          fun row => decide (owner row = accountId) := by
        funext row
        rw [Function.comp, howner]
      rw [hsame]
      refine (List.map_congr_left fun row hrow => ?_).trans (List.map_id _)
      have hrow := of_decide_eq_true (List.mem_filter.mp hrow).2
      rcases hkept row with hsame | ⟨hof', -⟩
      · exact hsame
      · exact absurd (hof'.symm.trans hrow) (hof r (List.mem_cons_self ..))

end holding

/-- What a batch does to the account tables. -/
theorem BatchCreated.resequenced {ordered : List ReservationOrderPair} {now : UTCDateTime}
    {row : PaperAccountRow} {event : PaperAccountEvent}
    (h : BatchCreated s ordered now row event s') :
    (∃ f, s'.cash = s.cash.map f ∧
        CashResequenced row.accountId (row.aggregateSequence + 1) f) ∧
      ∃ f, s'.positions = s.positions.map f ∧
        PositionsResequenced row.accountId (row.aggregateSequence + 1) f := by
  have hof : ∀ r ∈ ordered.map (·.1.reservation), r.accountId = row.accountId ∧
      r.accountAggregateSequence = row.aggregateSequence + 1 := by
    intro r hr
    obtain ⟨pair, hpair, rfl⟩ := List.mem_map.mp hr
    exact ⟨h.account_of pair hpair, h.sequence_of pair hpair⟩
  rw [h.state]
  constructor
  · refine foldl_resequenced (fun rows r => holdCash_holds r rows) hof ⟨_, rfl, fun r => ?_⟩
    split
    · exact ⟨rfl, rfl, rfl⟩
    · exact ⟨rfl, rfl, rfl⟩
  · refine foldl_resequenced (fun rows r => holdPosition_holds r rows) hof
      ⟨_, rfl, fun r => ?_⟩
    split
    · exact ⟨rfl, rfl, rfl⟩
    · exact ⟨rfl, rfl, rfl⟩

theorem LedgerKept.batch {ordered : List ReservationOrderPair} {now : UTCDateTime}
    {row : PaperAccountRow} {event : PaperAccountEvent} (hk : LedgerKept s)
    (h : BatchCreated s ordered now row event s') : LedgerKept s' := by
  obtain ⟨⟨f, hcash, hf⟩, g, hpositions, hg⟩ := h.resequenced
  have haccounts : s'.accounts = Table.update (·.accountId = row.accountId)
      (fun _ => { row with aggregateSequence := row.aggregateSequence + 1, updatedAt := now })
      s.accounts := by
    rw [h.state]
    rfl
  have hopenings : s'.openings = s.openings := by rw [h.state]; rfl
  have hjournal : s'.journal = s.journal := by rw [h.state]; rfl
  have hledger : s'.ledger = s.ledger := by rw [h.state]; rfl
  have howned : ∀ accountId, (∃ r ∈ s.accounts, r.accountId = accountId) →
      ∃ r ∈ s'.accounts, r.accountId = accountId := by
    rintro _ ⟨r, hr, rfl⟩
    rw [haccounts]
    refine ⟨_, Table.mem_update.mpr ⟨r, hr, rfl⟩, ?_⟩
    split
    · rename_i hid
      exact hid.symm
    · rfl
  refine ⟨?_, ?_, ?_, ?_, ?_, ?_⟩
  · rw [haccounts]
    exact hk.accounts_unique.update fun r hid => hid.symm
  · rw [hcash]
    intro r hr
    obtain ⟨r₀, hr₀, rfl⟩ := List.mem_map.mp hr
    rw [(hf r₀).1]
    exact howned _ (hk.cash_owned r₀ hr₀)
  · rw [hpositions]
    intro r hr
    obtain ⟨r₀, hr₀, rfl⟩ := List.mem_map.mp hr
    rw [(hg r₀).1]
    exact howned _ (hk.positions_owned r₀ hr₀)
  · rw [hledger]
    exact fun r hr => howned _ (hk.ledger_owned r hr)
  · rw [hjournal]
    exact fun t ht => howned _ (hk.journal_owned t ht)
  · intro row' hrow'
    rw [haccounts] at hrow'
    obtain ⟨r, hr, rfl⟩ := Table.mem_update.mp hrow'
    obtain ⟨opening, p, hrefines⟩ := hk.refines r hr
    have hcurrent := hrefines.current
    have halike : SettledAlike s s' r.accountId := by
      constructor
      · unfold Store.opening
        rw [hopenings]
      · unfold Store.journalOf
        rw [hjournal]
      · unfold Store.ledgerOf
        rw [hledger]
      · unfold Store.cashOf
        rw [hcash]
        exact map_filter_map (fun r => (hf r).1) fun r => (hf r).2.1
      · unfold Store.positionsOf
        rw [hpositions]
        exact map_filter_map (fun r => (hg r).1) fun r => (hg r).2.1
    by_cases hid : r.accountId = row.accountId
    · -- the batch's own account: its rows move to the next sequence together
      have hrow : r = row := hk.accounts_unique.eq hr (Table.mem_of_get h.account) hid
      subst hrow
      refine ⟨opening, p, hrefines.transfer halike (by simp) (by simp) ?_⟩
      rw [if_pos rfl]
      constructor
      · rw [hcash]
        intro x hx hof
        obtain ⟨x₀, hx₀, rfl⟩ := List.mem_map.mp hx
        rw [(hf x₀).2.2, if_pos ((hf x₀).1 ▸ hof)]
      · rw [hpositions]
        intro x hx hof
        obtain ⟨x₀, hx₀, rfl⟩ := List.mem_map.mp hx
        rw [(hg x₀).2.2, if_pos ((hg x₀).1 ▸ hof)]
    · refine ⟨opening, p, hrefines.transfer halike (by simp [hid]) (by simp [hid]) ?_⟩
      rw [if_neg hid]
      constructor
      · rw [hcash]
        intro x hx hof
        obtain ⟨x₀, hx₀, rfl⟩ := List.mem_map.mp hx
        rw [(hf x₀).1] at hof
        rw [(hf x₀).2.2, if_neg (fun hx => hid (hof.symm.trans hx))]
        exact hcurrent.1 x₀ hx₀ hof
      · rw [hpositions]
        intro x hx hof
        obtain ⟨x₀, hx₀, rfl⟩ := List.mem_map.mp hx
        rw [(hg x₀).1] at hof
        rw [(hg x₀).2.2, if_neg (fun hx => hid (hof.symm.trans hx))]
        exact hcurrent.2 x₀ hx₀ hof

/-! ## A registration -/

omit [Hashing] in
theorem filter_append_other {α : Type} {rows new : List α} {key : α → AccountId}
    {accountId : AccountId} (h : ∀ r ∈ new, key r ≠ accountId) :
    (rows ++ new).filter (key · = accountId) = rows.filter (key · = accountId) := by
  have hnone : new.filter (key · = accountId) = [] := by simpa using h
  rw [List.filter_append, hnone, List.append_nil]

omit [Hashing] in
theorem filter_append_fresh {α : Type} {rows new : List α} {key : α → AccountId}
    {accountId : AccountId} (hold : ∀ r ∈ rows, key r ≠ accountId)
    (hnew : ∀ r ∈ new, key r = accountId) :
    (rows ++ new).filter (key · = accountId) = new := by
  have hnone : rows.filter (key · = accountId) = [] := by simpa using hold
  have hall : new.filter (key · = accountId) = new := by simpa using hnew
  rw [List.filter_append, hnone, hall, List.nil_append]

/-- The state that a registration reads back says that the snapshot can be replayed. -/
theorem openingReadable_of_getAccount {snapshot : AccountPortfolioSnapshot}
    {state : PaperAccountState}
    (hcash : s.cashOf snapshot.accountId = snapshot.cash.map (cashRow snapshot))
    (hpositions : s.positionsOf snapshot.accountId = snapshot.positions.map (positionRow snapshot))
    (h : s.getAccount snapshot.accountId = .success state) : OpeningReadable snapshot := by
  obtain ⟨row, hrow, rfl, hcashValid, hpositionsValid, hvalid⟩ := getAccount_eq_success h
  have hid : row.accountId = snapshot.accountId := Table.key_of_get hrow
  simp only [PaperAccountState.validate, Attempt.bind_eq_success, nonEmptyString_eq_success,
    maxLength_eq_success, requireSortedUnique, raiseUnless_eq_success] at hvalid
  obtain ⟨_, haccount, _, -, _, hcashLength, _, hpositionsLength, _, -, _, -, _, -, _,
    hcurrencies, _,
    hinstruments, -⟩ := hvalid
  have hcashPerm : (s.accountState row).cash.Perm snapshot.cash := by
    simp only [Store.accountState]
    rw [hid, hcash]
    refine ((sorted_perm _ _).map _).trans (List.Perm.of_eq ?_)
    rw [List.map_map]
    exact (List.map_congr_left fun _ _ => rfl).trans (List.map_id _)
  have hpositionsPerm : (s.accountState row).positions.Perm snapshot.positions := by
    simp only [Store.accountState]
    rw [hid, hpositions]
    refine ((sorted_perm _ _).map _).trans (List.Perm.of_eq ?_)
    rw [List.map_map]
    exact (List.map_congr_left fun _ _ => rfl).trans (List.map_id _)
  constructor
  · simpa only [Store.accountState, hid] using haccount
  · rwa [← hcashPerm.length_eq]
  · rwa [← hpositionsPerm.length_eq]
  · exact fun b hb => hcashValid b (hcashPerm.mem_iff.mpr hb)
  · exact fun b hb => hpositionsValid b (hpositionsPerm.mem_iff.mpr hb)
  · exact ((hcashPerm.map (·.currency)).nodup_iff).mp hcurrencies.2
  · exact ((hpositionsPerm.map (·.instrumentId)).nodup_iff).mp hinstruments.2

/-- What a registration shows of its account. -/
structure Registered (s : Store) (snapshot : AccountPortfolioSnapshot) : Prop where
  cash : s.cashOf snapshot.accountId = snapshot.cash.map (cashRow snapshot)
  positions : s.positionsOf snapshot.accountId = snapshot.positions.map (positionRow snapshot)
  ledger : s.ledgerOf snapshot.accountId =
    (openingTotals snapshot).map (⟨snapshot.accountId, ·, 0⟩)
  journal : s.journalOf snapshot.accountId = []

/-- No table has rows of an account that is not stored. -/
theorem LedgerKept.registered_rows {snapshot : AccountPortfolioSnapshot} {baseCurrency : Currency}
    {now : UTCDateTime} (hk : LedgerKept s)
    (hfresh : Table.Fresh (·.accountId) snapshot.accountId s.accounts) :
    Registered (s.registered snapshot baseCurrency now) snapshot := by
  have hnone : ∀ accountId, (∃ row ∈ s.accounts, row.accountId = accountId) →
      accountId ≠ snapshot.accountId := by
    rintro _ ⟨row, hrow, rfl⟩
    exact hfresh row hrow
  constructor
  · refine filter_append_fresh (fun r hr => hnone _ (hk.cash_owned r hr)) ?_
    exact List.forall_mem_map.mpr fun _ _ => rfl
  · refine filter_append_fresh (fun r hr => hnone _ (hk.positions_owned r hr)) ?_
    exact List.forall_mem_map.mpr fun _ _ => rfl
  · refine filter_append_fresh (fun r hr => hnone _ (hk.ledger_owned r hr)) ?_
    exact List.forall_mem_map.mpr fun _ _ => rfl
  · refine sorted_eq_nil.mpr (List.filter_eq_nil_iff.mpr fun t ht => ?_)
    simpa using hnone _ (hk.journal_owned t ht)

omit [Hashing] in
theorem registered_alike {snapshot : AccountPortfolioSnapshot} {baseCurrency : Currency}
    {now : UTCDateTime} {accountId : AccountId} (hne : accountId ≠ snapshot.accountId) :
    RowsAlike s (s.registered snapshot baseCurrency now) accountId := by
  constructor
  · exact Table.get_concat_of_ne hne.symm
  · rfl
  · exact filter_append_other (List.forall_mem_map.mpr fun _ _ => hne.symm)
  · exact filter_append_other (List.forall_mem_map.mpr fun _ _ => hne.symm)
  · exact filter_append_other (List.forall_mem_map.mpr fun _ _ => hne.symm)

/-- The new account shows the replay of its opening. -/
theorem Registered.refines {snapshot : AccountPortfolioSnapshot} {baseCurrency : Currency}
    {now : UTCDateTime} {state : PaperAccountState}
    (hrows : Registered (s.registered snapshot baseCurrency now) snapshot)
    (hgenesis : snapshot.ledgerSequence = 0 ∧ snapshot.ledgerHash = none)
    (hopening : Table.Fresh (·.accountId) snapshot.accountId s.openings)
    (hread : (s.registered snapshot baseCurrency now).getAccount snapshot.accountId =
      .success state) :
    Refines (s.registered snapshot baseCurrency now)
      ⟨snapshot.accountId, baseCurrency, 0, 0, 0, none, now, now⟩ snapshot
      (ledgerProjection snapshot (.opening snapshot)) := by
  have hreadable := openingReadable_of_getAccount hrows.cash hrows.positions hread
  constructor
  · exact Table.get_concat_self (x := snapshot) hopening
  · rw [hrows.journal]
    exact hreadable.replay AccountPortfolioSnapshot.inBounds_exact hgenesis
  · exact ⟨rfl, rfl⟩
  · rw [hrows.ledger, List.map_map]
    refine (List.Perm.of_eq ?_).trans (sorted_perm _ _).symm
    exact (List.map_congr_left fun _ _ => rfl).trans (List.map_id _)
  · rw [hrows.cash, List.map_map]
    exact opening_cashQuantums
  · rw [hrows.cash]
    intro r hr
    obtain ⟨b, hb, rfl⟩ := List.mem_map.mp hr
    exact (hreadable.cash_settled hb).symm
  · rw [hrows.cash]
    intro r hr
    obtain ⟨b, hb, rfl⟩ := List.mem_map.mp hr
    rfl
  · rw [hrows.positions, List.map_map]
    exact opening_positionQuantums
  · rw [hrows.positions]
    intro r hr
    obtain ⟨b, hb, rfl⟩ := List.mem_map.mp hr
    exact (hreadable.position_quantity hb).symm
  · rw [hrows.positions]
    intro r hr
    obtain ⟨b, hb, rfl⟩ := List.mem_map.mp hr
    rfl

/-- A new account starts as the replay of its opening. -/
theorem LedgerKept.registered {snapshot : AccountPortfolioSnapshot} {baseCurrency : Currency}
    {now : UTCDateTime} {state : PaperAccountState} (hk : LedgerKept s)
    (hgenesis : snapshot.ledgerSequence = 0 ∧ snapshot.ledgerHash = none)
    (hfresh : Table.Fresh (·.accountId) snapshot.accountId s.accounts)
    (hopening : Table.Fresh (·.accountId) snapshot.accountId s.openings)
    (hread : (s.registered snapshot baseCurrency now).getAccount snapshot.accountId =
      .success state) : LedgerKept (s.registered snapshot baseCurrency now) := by
  have howned : ∀ accountId, (∃ row ∈ s.accounts, row.accountId = accountId) →
      ∃ row ∈ (s.registered snapshot baseCurrency now).accounts, row.accountId = accountId := by
    rintro _ ⟨row, hrow, rfl⟩
    exact ⟨row, List.mem_append_left _ hrow, rfl⟩
  have hnew : ∃ row ∈ (s.registered snapshot baseCurrency now).accounts,
      row.accountId = snapshot.accountId :=
    ⟨_, List.mem_append_right _ (List.mem_singleton_self _), rfl⟩
  refine ⟨hk.accounts_unique.concat hfresh, ?_, ?_, ?_, ?_, ?_⟩
  · exact List.forall_mem_append.mpr ⟨fun r hr => howned _ (hk.cash_owned r hr),
      List.forall_mem_map.mpr fun _ _ => hnew⟩
  · exact List.forall_mem_append.mpr ⟨fun r hr => howned _ (hk.positions_owned r hr),
      List.forall_mem_map.mpr fun _ _ => hnew⟩
  · exact List.forall_mem_append.mpr ⟨fun r hr => howned _ (hk.ledger_owned r hr),
      List.forall_mem_map.mpr fun _ _ => hnew⟩
  · exact fun t ht => howned _ (hk.journal_owned t ht)
  · intro row hrow
    rcases List.mem_append.mp hrow with hrow | hrow
    · -- an account that was there before
      obtain ⟨opening, p, hrefines⟩ := hk.refines row hrow
      exact ⟨opening, p, hrefines.alike (registered_alike (hfresh row hrow))⟩
    · -- the new account
      obtain rfl := List.mem_singleton.mp hrow
      exact ⟨_, _, (hk.registered_rows hfresh).refines hgenesis hopening hread⟩

end StonksPaper
