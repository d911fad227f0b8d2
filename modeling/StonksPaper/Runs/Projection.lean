import StonksPaper.Runs.Posting

/-!
# Reading the projection back

Where the stored rows refine the replay, `get_projection` and the graph checks find nothing to
refuse: what they read is the replayed projection itself.
-/

namespace StonksPaper

open Chain
open scoped ExactArithmetic

section

variable [Hashing] {s s' : Store}

/-- The stored parts of an account's ledger pass their own validators. -/
structure LedgerReadable (s : Store) (accountId : AccountId) : Prop where
  opening : ∃ opening, s.getOpeningSnapshot accountId = .success opening
  journal : ∀ t ∈ s.journalOf accountId,
    (∀ p ∈ t.postings, p.validate = .success ()) ∧ t.validate = .success ()

theorem LedgerReadable.listTransactions {accountId : AccountId} (h : LedgerReadable s accountId) :
    s.listTransactions accountId = .success (s.journalOf accountId) := by
  have hall : ((s.journalOf accountId).forM fun t => do
      t.postings.forM (·.validate)
      t.validate : Call Unit) = .success () := by
    refine Attempt.forM_eq_success.mpr fun t ht => ?_
    obtain ⟨hpostings, hvalid⟩ := h.journal t ht
    exact Attempt.bind_eq_success.mpr ⟨(), Attempt.forM_eq_success.mpr hpostings, hvalid⟩
  unfold Store.listTransactions
  rw [hall]
  rfl

theorem Refines.ledgerBalances {row : PaperAccountRow} {opening : AccountPortfolioSnapshot}
    {p : LedgerProjection} (h : Refines s row opening p) :
    s.ledgerBalances row.accountId = p.balances := by
  obtain ⟨-, state, -, hprojection⟩ := replayJournal_eq_success.mp h.replayed
  obtain ⟨-, hvalid, rfl⟩ := projectionOf_eq_success.mp hprojection
  have hunique : (state.totals.map (·.sortKey)).Nodup := by
    obtain ⟨-, -, -, -, hsorted, -⟩ := LedgerProjection.validate_iff.mp hvalid
    exact (((sorted_perm _ _).map _).nodup_iff).mp hsorted.2
  have hperm : ((s.ledgerOf row.accountId).map (·.balance)).Perm state.totals :=
    h.ledger.trans (sorted_perm _ _)
  exact sorted_eq_of_perm hperm hunique

/-- The cash and position rows of a refining store pass the comparison with the projection. -/
theorem Refines.specialized {row : PaperAccountRow} {opening : AccountPortfolioSnapshot}
    {p : LedgerProjection} (h : Refines s row opening p) (haccount : s.account row.accountId =
    some row)
    (hid : p.accountId = row.accountId) :
    s.validateSpecializedProjection p = .success () := by
  have hcash : (∀ r ∈ s.cashOf row.accountId, CashRowMatches p row.aggregateSequence r) ∧
      ∀ item ∈ cashQuantums p, item.1 ∈ (s.cashOf row.accountId).map (·.currency) := by
    constructor
    · intro r hr
      exact ⟨h.cash.mem_iff.mp (List.mem_map_of_mem hr), h.cash_settled r hr, h.cash_current r hr⟩
    · intro item hitem
      obtain ⟨r, hr, rfl⟩ := List.mem_map.mp (h.cash.mem_iff.mpr hitem)
      exact List.mem_map_of_mem hr
  have hpositions : (∀ r ∈ s.positionsOf row.accountId,
      PositionRowMatches p row.aggregateSequence r) ∧
      ∀ item ∈ positionQuantums p, item.1 ∈ (s.positionsOf row.accountId).map (·.instrumentId) := by
    constructor
    · intro r hr
      exact ⟨h.positions.mem_iff.mp (List.mem_map_of_mem hr), h.positions_settled r hr,
        h.positions_current r hr⟩
    · intro item hitem
      obtain ⟨r, hr, rfl⟩ := List.mem_map.mp (h.positions.mem_iff.mpr hitem)
      exact List.mem_map_of_mem hr
  simp only [Store.validateSpecializedProjection, Attempt.bind_eq_success, orFail_eq_success,
    failUnless_eq_success, hid]
  exact ⟨row, haccount, (), hcash, hpositions⟩

/-- A refining store's projection reads back as the replay. -/
theorem Refines.getProjection {row : PaperAccountRow} {opening : AccountPortfolioSnapshot}
    {p : LedgerProjection} (h : Refines s row opening p)
    (haccount : s.account row.accountId = some row) (hread : LedgerReadable s row.accountId) :
    s.getProjection row.accountId = .success p := by
  obtain ⟨opening', hopening⟩ := hread.opening
  have hsame : opening = opening' :=
    Option.some.inj (h.opened.symm.trans (getOpeningSnapshot_eq_success hopening).1)
  subst hsame
  have hid : p.accountId = row.accountId :=
    (replayJournal_accountId h.replayed).trans (opening_accountId h.opened)
  obtain ⟨-, state, -, hprojection⟩ := replayJournal_eq_success.mp h.replayed
  obtain ⟨htotals, hvalid, hp⟩ := projectionOf_eq_success.mp hprojection
  have hbalances : ∀ b ∈ s.ledgerBalances row.accountId, b.validate = .success () := by
    rw [h.ledgerBalances, hp]
    exact fun b hb => htotals b (mem_sorted.mp hb)
  have hpvalid : p.validate = .success () := hp ▸ hvalid
  obtain ⟨hnonempty, -, -, hgenesis, -, -⟩ := LedgerProjection.validate_iff.mp hpvalid
  have hhead : s.getHead row.accountId =
      .success ⟨row.accountId, row.ledgerSequence, row.ledgerHash⟩ := by
    simp only [Store.getHead, Attempt.bind_eq_success, orFail_eq_success,
      integrityChecked_eq_success, modelValidate_eq_success, LedgerHead.validate,
      nonEmptyString_eq_success, raiseUnless_eq_success]
    exact ⟨row, haccount, ⟨(), hid ▸ hnonempty, by rw [h.head.1, h.head.2]; exact hgenesis⟩, rfl⟩
  have hpersisted : s.persistedProjection ⟨row.accountId, row.ledgerSequence, row.ledgerHash⟩ p =
      p := by
    unfold Store.persistedProjection
    rw [h.ledgerBalances, h.head.1, h.head.2, ← hid]
  simp only [Store.getProjection, Attempt.bind_eq_success, failUnless_eq_success,
    integrityChecked_eq_success, Attempt.forM_eq_success, modelValidate_eq_success, Attempt.pure_eq]
  refine ⟨opening, hopening, _, hhead, _, hread.listTransactions, p, h.replayed, p,
    ⟨(), hbalances, ?_, hpersisted⟩, (), ⟨h.head.1.symm, h.head.2.symm⟩, (),
    h.specialized haccount hid, rfl⟩
  rw [hpersisted]
  exact hpvalid

theorem Refines.replayInputs {row : PaperAccountRow} {opening : AccountPortfolioSnapshot}
    {p : LedgerProjection} (h : Refines s row opening p) (hread : LedgerReadable s row.accountId) :
    s.replayInputs row.accountId = .success (opening, s.journalOf row.accountId, p) := by
  obtain ⟨opening', hopening⟩ := hread.opening
  have hsame : opening = opening' :=
    Option.some.inj (h.opened.symm.trans (getOpeningSnapshot_eq_success hopening).1)
  subst hsame
  simp only [Store.replayInputs, Attempt.bind_eq_success, Attempt.pure_eq]
  exact ⟨opening, hopening, _, hread.listTransactions, p, h.replayed, rfl⟩

end

end StonksPaper
