import StonksPaper.Runs.Refines

/-!
# Posting keeps the refinement

A transaction that is appended moves every row of its account to the replay that includes it, adds
the rows that the replay names for the first time, and leaves the rows of other accounts alone.
-/

namespace StonksPaper

open Chain
open scoped ExactArithmetic

section

variable [Hashing] {s s' : Store}

/-! ## The rows of the account -/

omit [Hashing] in
theorem movedLedger_key (after : LedgerProjection) (row : PaperLedgerAccountProjectionRow) :
    (movedLedger after row).accountId = row.accountId ∧
      (movedLedger after row).balance.key = row.balance.key := by
  unfold movedLedger
  split <;> exact ⟨rfl, rfl⟩

omit [Hashing] in
theorem LedgerAccountBalance.eq_of_key {a b : LedgerAccountBalance} (hkey : a.key = b.key)
    (hquantum : a.quantum = b.quantum) (hdebit : a.debitTotal = b.debitTotal)
    (hcredit : a.creditTotal = b.creditTotal) : a = b := by
  obtain ⟨haccount, hcommodity⟩ := Prod.ext_iff.mp hkey
  cases a
  cases b
  simp_all [LedgerAccountBalance.key]

omit [Hashing] in
/-- A row of a key that the projection knows ends with the projection's balance. -/
theorem movedLedger_mem {row : PaperLedgerAccountProjectionRow} {after : LedgerProjection}
    {b : LedgerAccountBalance} (hb : b ∈ after.balances)
    (hkey : b.key = row.balance.key) (hsame : b.quantum = row.balance.quantum)
    (hquantum : ∀ c ∈ changedBalance after row, row.balance.quantum = c.quantum) :
    (movedLedger after row).balance ∈ after.balances := by
  unfold movedLedger
  cases hchanged : changedBalance after row with
  | some c =>
      have hmem : c ∈ after.balances := List.mem_of_find?_eq_some hchanged
      have hfound := List.find?_some hchanged
      rw [decide_eq_true_eq] at hfound
      have heq : ({ row.balance with
          debitTotal := c.debitTotal, creditTotal := c.creditTotal } : LedgerAccountBalance) = c :=
        LedgerAccountBalance.eq_of_key hfound.1.symm (hquantum c hchanged) rfl rfl
      exact heq ▸ hmem
  | none =>
      have htotals := List.find?_eq_none.mp hchanged b hb
      simp only [hkey, true_and, decide_eq_true_eq, not_or, not_not] at htotals
      have heq : row.balance = b :=
        LedgerAccountBalance.eq_of_key hkey.symm hsame.symm htotals.1 htotals.2
      exact heq ▸ hb

omit [Hashing] in
/-- The account's ledger rows after a transaction are the balances of the new replay. -/
theorem movedLedgerRows_perm {rows : List PaperLedgerAccountProjectionRow}
    {before after : LedgerProjection} (hunique : after.KeysUnique) (hbefore : before.KeysUnique)
    (hkept : MutableTotals.KeptIn before.balances after.balances)
    (hrows : ((rows.filter (·.accountId = after.accountId)).map (·.balance)).Perm before.balances)
    (hquantum : ∀ row ∈ rows.filter (·.accountId = after.accountId),
      ∀ b ∈ changedBalance after row, row.balance.quantum = b.quantum) :
    (((movedLedgerRows rows after).filter (·.accountId = after.accountId)).map (·.balance)).Perm
      after.balances := by
  have hmoved := movedLedger_key after
  have hcurrent : ∀ row ∈ rows.filter (·.accountId = after.accountId),
      (movedLedger after row).balance ∈ after.balances := by
    intro row hrow
    obtain ⟨b, hb, hkey, hq⟩ := hkept row.balance (hrows.mem_iff.mp (List.mem_map_of_mem hrow))
    exact movedLedger_mem hb hkey hq (hquantum row hrow)
  have hfilter : (Table.update
      (fun row => row.accountId = after.accountId ∧ changedBalance after row ≠ none)
      (movedLedger after) rows).filter (·.accountId = after.accountId) =
        (rows.filter (·.accountId = after.accountId)).map (movedLedger after) := by
    rw [Table.filter_update fun row _ => by rw [(hmoved row).1], Table.update]
    refine List.map_congr_left fun row hrow => ?_
    have hof := of_decide_eq_true (List.mem_filter.mp hrow).2
    by_cases hchanged : changedBalance after row = none
    · rw [if_neg fun h => h.2 hchanged]
      unfold movedLedger
      rw [hchanged]
    · rw [if_pos ⟨hof, hchanged⟩]
  have hmissing : ((missingLedger rows after).map fun b =>
      (⟨after.accountId, b, after.ledgerSequence⟩ : PaperLedgerAccountProjectionRow)).filter
        (·.accountId = after.accountId) =
      (missingLedger rows after).map (⟨after.accountId, ·, after.ledgerSequence⟩) := by
    refine List.filter_eq_self.mpr fun r hr => ?_
    obtain ⟨b, -, rfl⟩ := List.mem_map.mp hr
    simp
  have hold : ((rows.filter (·.accountId = after.accountId)).map
      fun row => (movedLedger after row).balance).map (·.key) =
        (rows.filter (·.accountId = after.accountId)).map (·.balance.key) := by
    rw [List.map_map]
    exact List.map_congr_left fun row _ => (hmoved row).2
  have hcomplete := Table.complete_perm ((rows.filter (·.accountId = after.accountId)).map
    fun row => (movedLedger after row).balance) hunique ?_ ?_
  · unfold movedLedgerRows
    rw [List.filter_append, hfilter, hmissing, List.map_append, List.map_map, List.map_map]
    refine (List.Perm.of_eq ?_).trans hcomplete
    congr 1
    simp only [missingLedger, hold]
    exact (List.map_congr_left fun _ _ => rfl).trans (List.map_id _)
  · unfold Table.Unique
    rw [hold]
    have hkeys : (((rows.filter (·.accountId = after.accountId)).map (·.balance)).map
        LedgerAccountBalance.key).Nodup := (hrows.map _).nodup_iff.mpr hbefore
    rwa [List.map_map] at hkeys
  · intro b hb
    obtain ⟨row, hrow, rfl⟩ := List.mem_map.mp hb
    exact hcurrent row hrow

section

variable {R I : Type} {accountId : AccountId} {settle : R → R} {added : I → R} {rows : List R}
  {missing : List I}

omit [Hashing] in
theorem settled_filter (owner : R → AccountId) (hsettle : ∀ r, owner (settle r) = owner r)
    (hadded : ∀ item, owner (added item) = accountId) :
    (Table.update (owner · = accountId) settle rows ++ missing.map added).filter
        (owner · = accountId) =
      (rows.filter (owner · = accountId)).map settle ++ missing.map added := by
  rw [List.filter_append, Table.filter_update fun row _ => by rw [hsettle]]
  congr 1
  · rw [Table.update]
    refine List.map_congr_left fun row hrow => ?_
    rw [if_pos (of_decide_eq_true (List.mem_filter.mp hrow).2)]
  · refine List.filter_eq_self.mpr fun r hr => ?_
    obtain ⟨item, -, rfl⟩ := List.mem_map.mp hr
    exact decide_eq_true (hadded item)

omit [Hashing] in
theorem forall_mem_settled {p : R → Prop} (hsettle : ∀ r, p (settle r))
    (hadded : ∀ item, p (added item)) : ∀ r ∈ rows.map settle ++ missing.map added, p r := by
  intro r hr
  rcases List.mem_append.mp hr with hr | hr
  · obtain ⟨r₀, -, rfl⟩ := List.mem_map.mp hr
    exact hsettle r₀
  · obtain ⟨item, -, rfl⟩ := List.mem_map.mp hr
    exact hadded item

end

omit [Hashing] in
theorem settledCashRows_filter {rows : List PaperCashProjectionRow} {accountId : AccountId}
    {after : LedgerProjection} {sequence : ℕ} :
    (settledCashRows rows accountId after sequence).filter (·.accountId = accountId) =
      (rows.filter (·.accountId = accountId)).map (settledCash after sequence) ++
        (missingCash rows accountId after).map fun item =>
          ⟨accountId, item.1, after.cash item.1, 0, item.2, sequence⟩ :=
  settled_filter PaperCashProjectionRow.accountId (fun _ => rfl) fun _ => rfl

omit [Hashing] in
theorem settledPositionRows_filter {rows : List PaperPositionProjectionRow} {accountId : AccountId}
    {after : LedgerProjection} {sequence : ℕ} :
    (settledPositionRows rows accountId after sequence).filter (·.accountId = accountId) =
      (rows.filter (·.accountId = accountId)).map (settledPosition after sequence) ++
        (missingPositions rows accountId after).map fun item =>
          ⟨accountId, item.1, after.position item.1, after.position item.1, 0, item.2,
            sequence⟩ :=
  settled_filter PaperPositionProjectionRow.accountId (fun _ => rfl) fun _ => rfl

omit [Hashing] in
/-- Rows, with one row for each other key of the new replay, have the keys and quantums of it. -/
theorem quantums_perm {R K : Type} [DecidableEq K] {key : R → K} {quantum : R → Decimal}
    {rows settled : List R} {quantums : List (K × Decimal)}
    (hquantums : Table.Unique Prod.fst quantums) (hrows : Table.Unique key rows)
    (hknown : ∀ row ∈ rows, (key row, quantum row) ∈ quantums)
    (hsettled : (settled.map fun r => (key r, quantum r)) =
      (rows.map fun r => (key r, quantum r)) ++ quantums.filter (·.1 ∉ rows.map key)) :
    (settled.map fun r => (key r, quantum r)).Perm quantums := by
  have hkeys : (rows.map fun r => (key r, quantum r)).map Prod.fst = rows.map key := by
    rw [List.map_map]
    rfl
  have hcomplete := Table.complete_perm (rows.map fun r => (key r, quantum r)) hquantums
    (by unfold Table.Unique; rw [hkeys]; exact hrows)
    (by
      intro item hitem
      obtain ⟨row, hrow, rfl⟩ := List.mem_map.mp hitem
      exact hknown row hrow)
  rw [hkeys] at hcomplete
  rwa [hsettled]

omit [Hashing] in
theorem unique_of_quantums {R K : Type} {key : R → K} {quantum : R → Decimal} {rows : List R}
    {quantums : List (K × Decimal)} (hquantums : Table.Unique Prod.fst quantums)
    (hrows : (rows.map fun r => (key r, quantum r)).Perm quantums) : Table.Unique key rows := by
  have hkeys := ((hrows.map Prod.fst).nodup_iff).mpr hquantums
  rwa [List.map_map] at hkeys

omit [Hashing] in
theorem settledCashRows_perm {rows : List PaperCashProjectionRow} {accountId : AccountId}
    {after : LedgerProjection} {sequence : ℕ} (hunique : after.KeysUnique)
    (hrows : Table.Unique (·.currency) (rows.filter (·.accountId = accountId)))
    (hknown : ∀ row ∈ rows.filter (·.accountId = accountId),
      (row.currency, row.quantum) ∈ cashQuantums after) :
    (((settledCashRows rows accountId after sequence).filter (·.accountId = accountId)).map
      fun r => (r.currency, r.quantum)).Perm (cashQuantums after) := by
  refine quantums_perm (cashQuantums_unique hunique) hrows hknown ?_
  rw [settledCashRows_filter, List.map_append, List.map_map, List.map_map]
  exact congrArg₂ _ rfl (List.map_id _)

omit [Hashing] in
theorem settledPositionRows_perm {rows : List PaperPositionProjectionRow} {accountId : AccountId}
    {after : LedgerProjection} {sequence : ℕ} (hunique : after.KeysUnique)
    (hrows : Table.Unique (·.instrumentId) (rows.filter (·.accountId = accountId)))
    (hknown : ∀ row ∈ rows.filter (·.accountId = accountId),
      (row.instrumentId, row.quantum) ∈ positionQuantums after) :
    (((settledPositionRows rows accountId after sequence).filter (·.accountId = accountId)).map
      fun r => (r.instrumentId, r.quantum)).Perm (positionQuantums after) := by
  refine quantums_perm (positionQuantums_unique hunique) hrows hknown ?_
  rw [settledPositionRows_filter, List.map_append, List.map_map, List.map_map]
  exact congrArg₂ _ rfl (List.map_id _)

omit [Hashing] in
/-- The account's journal ends with the transaction that was admitted. -/
theorem journalOf_concat {transaction : JournalTransaction} (hadmits : s.AdmitsJournal transaction)
    (h : s'.journal = s.journal ++ [transaction]) :
    s'.journalOf transaction.accountId = s.journalOf transaction.accountId ++ [transaction] := by
  have hself : [transaction].filter (fun t => decide (t.accountId = transaction.accountId)) =
      [transaction] := by simp
  unfold Store.journalOf
  rw [h, List.filter_append, hself]
  refine sorted_concat fun t ht => ?_
  obtain ⟨hchain, -⟩ := hadmits
  split at hchain
  · have hempty := sorted_eq_nil.mp hchain.1
    rw [hempty] at ht
    cases ht
  · obtain ⟨prior, hprior, hsequence, -⟩ := hchain
    have hle := le_of_getLast_sorted hprior ht
    omega

/-- The account of a posted transaction refines the new replay. -/
theorem Refines.posted {transaction : JournalTransaction} {sequence : ℕ} {hash : Option Sha256}
    {accountSequence : ℕ} {row : PaperAccountRow} {opening : AccountPortfolioSnapshot}
    {before after : LedgerProjection} {fill : Fill} {event : PaperAccountEvent} {now : UTCDateTime}
    (hchecked : AppendChecked s transaction sequence hash accountSequence row before after fill)
    (hposted : JournalPosted s transaction row before after event now s')
    (hrefines : Refines s row opening before) :
    Refines s' (row.posted transaction now) opening after := by
  obtain ⟨hid, hbeforeId, hafterId⟩ := hchecked.accountIds
  obtain ⟨opening', hopening, hbefore, hafter⟩ := hchecked.replayed
  obtain rfl : opening = opening' := by
    refine Option.some.inj (hrefines.opened.symm.trans ?_)
    rw [hid]
    exact hopening
  have hunique := replayJournal_keysUnique hafter
  obtain ⟨hkept, hsequence, hhash⟩ := replayJournal_concat hbefore hafter
  have hbeforeOf : before.accountId = row.accountId := hbeforeId.trans hid.symm
  have hafterOf : after.accountId = row.accountId := hafterId.trans hid.symm
  have hcurrencies : Table.Unique (·.currency) (s.cashOf row.accountId) :=
    unique_of_quantums (cashQuantums_unique (replayJournal_keysUnique hbefore)) hrefines.cash
  have hinstruments : Table.Unique (·.instrumentId) (s.positionsOf row.accountId) :=
    unique_of_quantums (positionQuantums_unique (replayJournal_keysUnique hbefore))
      hrefines.positions
  have hcash : s'.cashOf row.accountId = (settledCashRows s.cash row.accountId after
      (row.aggregateSequence + 1)).filter (·.accountId = row.accountId) := by
    rw [hposted.state]
    rfl
  have hpositions : s'.positionsOf row.accountId = (settledPositionRows s.positions row.accountId
      after (row.aggregateSequence + 1)).filter (·.accountId = row.accountId) := by
    rw [hposted.state]
    rfl
  constructor
  · rw [hposted.state]
    exact hrefines.opened
  · have hjournal : s'.journal = s.journal ++ [transaction] := by
      rw [hposted.state]
      rfl
    change replayJournal opening (s'.journalOf row.accountId) = .success after
    rw [hid, journalOf_concat hposted.journal hjournal]
    exact hafter
  · exact ⟨hsequence.symm, hhash.symm⟩
  · have hledger : s'.ledgerOf row.accountId =
        (movedLedgerRows s.ledger after).filter (·.accountId = after.accountId) := by
      rw [hposted.state, hafterOf]
      rfl
    change ((s'.ledgerOf row.accountId).map (·.balance)).Perm after.balances
    rw [hledger]
    refine movedLedgerRows_perm hunique (replayJournal_keysUnique hbefore) hkept ?_
      hposted.ledger.quantum
    rw [hafterOf]
    exact hrefines.ledger
  · change ((s'.cashOf row.accountId).map fun r => (r.currency, r.quantum)).Perm
      (cashQuantums after)
    rw [hcash]
    refine settledCashRows_perm hunique hcurrencies fun r hr => hposted.cash.known r ?_
    rw [hbeforeOf]
    exact hr
  · change ∀ r ∈ s'.cashOf row.accountId, r.settledAmount = after.cash r.currency
    rw [hcash, settledCashRows_filter]
    exact forall_mem_settled (fun _ => rfl) fun _ => rfl
  · change ∀ r ∈ s'.cashOf row.accountId, r.updatedSequence = row.aggregateSequence + 1
    rw [hcash, settledCashRows_filter]
    exact forall_mem_settled (fun _ => rfl) fun _ => rfl
  · change ((s'.positionsOf row.accountId).map fun r => (r.instrumentId, r.quantum)).Perm
      (positionQuantums after)
    rw [hpositions]
    refine settledPositionRows_perm hunique hinstruments fun r hr => hposted.positions.known r ?_
    rw [hbeforeOf]
    exact hr
  · change ∀ r ∈ s'.positionsOf row.accountId, r.quantity = after.position r.instrumentId
    rw [hpositions, settledPositionRows_filter]
    exact forall_mem_settled (fun _ => rfl) fun _ => rfl
  · change ∀ r ∈ s'.positionsOf row.accountId, r.updatedSequence = row.aggregateSequence + 1
    rw [hpositions, settledPositionRows_filter]
    exact forall_mem_settled (fun _ => rfl) fun _ => rfl

/-! ## The rows of the other accounts -/

/-- The rows of the other accounts are left. -/
theorem JournalPosted.alike {transaction : JournalTransaction} {row : PaperAccountRow}
    {before after : LedgerProjection} {event : PaperAccountEvent} {now : UTCDateTime}
    {accountId : AccountId} (h : JournalPosted s transaction row before after event now s')
    (hid : row.accountId = transaction.accountId) (hafter : after.accountId = row.accountId)
    (hof : accountId ≠ row.accountId) : RowsAlike s s' accountId := by
  have hjournal : s'.journal = s.journal ++ [transaction] := by
    rw [h.state]
    rfl
  constructor
  · rw [h.state]
    rfl
  · unfold Store.journalOf
    rw [hjournal, filter_append_other fun t ht => ?_]
    rw [List.mem_singleton.mp ht, ← hid]
    exact hof.symm
  · rw [h.state]
    refine Table.filter_update_append_other (fun r _ => (movedLedger_key after r).1) ?_ ?_
    · exact fun r hr => hr.1.trans hafter ▸ hof.symm
    · exact List.forall_mem_map.mpr fun _ _ => hafter ▸ hof.symm
  · rw [h.state]
    refine Table.filter_update_append_other (fun r _ => rfl) (fun r hr => hr ▸ hof.symm) ?_
    exact List.forall_mem_map.mpr fun _ _ => hof.symm
  · rw [h.state]
    refine Table.filter_update_append_other (fun r _ => rfl) (fun r hr => hr ▸ hof.symm) ?_
    exact List.forall_mem_map.mpr fun _ _ => hof.symm

theorem LedgerKept.posted {transaction : JournalTransaction} {sequence : ℕ} {hash : Option Sha256}
    {accountSequence : ℕ} {row : PaperAccountRow} {before after : LedgerProjection} {fill : Fill}
    {event : PaperAccountEvent} {now : UTCDateTime} (hk : LedgerKept s)
    (hchecked : AppendChecked s transaction sequence hash accountSequence row before after fill)
    (hposted : JournalPosted s transaction row before after event now s') : LedgerKept s' := by
  obtain ⟨hid, -, hafterId⟩ := hchecked.accountIds
  have hafterOf : after.accountId = row.accountId := hafterId.trans hid.symm
  have hrow : row ∈ s.accounts := Table.mem_of_get hchecked.account
  have haccounts : s'.accounts = Table.update (·.accountId = row.accountId)
      (fun _ => row.posted transaction now) s.accounts := by
    rw [hposted.state]
    rfl
  have howned : ∀ accountId, (∃ r ∈ s.accounts, r.accountId = accountId) →
      ∃ r ∈ s'.accounts, r.accountId = accountId := by
    intro accountId hstored
    rw [haccounts]
    exact Table.exists_mem_update (fun r _ hof hr => hof.symm.trans hr) hstored
  have hown : ∃ r ∈ s'.accounts, r.accountId = row.accountId := howned _ ⟨row, hrow, rfl⟩
  let owned := fun accountId : AccountId => ∃ r ∈ s'.accounts, r.accountId = accountId
  refine ⟨?_, ?_, ?_, ?_, ?_, ?_⟩
  · rw [haccounts]
    exact hk.accounts_unique.update fun r hof => hof.symm
  · rw [show s'.cash = settledCashRows s.cash row.accountId after (row.aggregateSequence + 1) by
      rw [hposted.state]; rfl]
    exact Table.forall_key_update_append PaperCashProjectionRow.accountId owned (fun _ _ => rfl)
      (fun r hr => howned _ (hk.cash_owned r hr)) (List.forall_mem_map.mpr fun _ _ => hown)
  · rw [show s'.positions =
        settledPositionRows s.positions row.accountId after (row.aggregateSequence + 1) by
      rw [hposted.state]; rfl]
    exact Table.forall_key_update_append PaperPositionProjectionRow.accountId owned
      (fun _ _ => rfl) (fun r hr => howned _ (hk.positions_owned r hr))
      (List.forall_mem_map.mpr fun _ _ => hown)
  · rw [show s'.ledger = movedLedgerRows s.ledger after by rw [hposted.state]; rfl]
    exact Table.forall_key_update_append PaperLedgerAccountProjectionRow.accountId owned
      (fun r _ => (movedLedger_key after r).1) (fun r hr => howned _ (hk.ledger_owned r hr))
      (List.forall_mem_map.mpr fun _ _ => hafterOf ▸ hown)
  · rw [show s'.journal = s.journal ++ [transaction] by rw [hposted.state]; rfl]
    refine List.forall_mem_append.mpr ⟨fun t ht => howned _ (hk.journal_owned t ht), ?_⟩
    rw [List.forall_mem_singleton, ← hid]
    exact hown
  · rw [haccounts]
    refine Table.forall_mem_update (fun r hr hof => ?_) fun r hr hof => ?_
    · obtain ⟨opening, p, hrefines⟩ := hk.refines r hr
      exact ⟨opening, p, hrefines.alike (hposted.alike hid hafterOf hof)⟩
    · obtain rfl := hk.accounts_unique.eq hr hrow hof
      obtain ⟨opening, p, hrefines⟩ := hk.refines r hr
      obtain ⟨opening', hopening, hbefore, -⟩ := hchecked.replayed
      have hopened : opening = opening' := by
        refine Option.some.inj (hrefines.opened.symm.trans ?_)
        rw [hid]
        exact hopening
      have hreplayed := hrefines.replayed
      rw [hid, hopened] at hreplayed
      obtain rfl : before = p := Attempt.success.inj (hbefore.symm.trans hreplayed)
      exact ⟨opening, after, hrefines.posted hchecked hposted⟩

/-! ## Every run -/

theorem LedgerKept.effect {O : Permission} (h : Effect O s s') (hk : LedgerKept s) :
    LedgerKept s' := by
  cases h with
  | registered genesis fresh openingFresh readable =>
      exact hk.registered genesis fresh openingFresh readable
  | targeted => exact hk.reserveOnly (.of_eq rfl rfl rfl rfl rfl rfl)
  | decided => exact hk.reserveOnly (.of_eq rfl rfl rfl rfl rfl rfl)
  | batch created => exact hk.batch created
  | executed _ persisted => exact hk.reserveOnly persisted.reserveOnly
  | posted checked posted => exact hk.posted checked posted
  | cancelled _ cancelled => exact hk.reserveOnly cancelled.reserveOnly
  | operated operated => exact hk.reserveOnly operated.same.reserveOnly

theorem ledgerKept_reached (at_ : UTCDateTime) (ops : List Timed) :
    LedgerKept (World.reached at_ ops).store :=
  World.invariant_reached at_ ops ledgerKept_migrated fun _ _ h hk => hk.effect h

end

section

open scoped CodeHashing

end

end StonksPaper
