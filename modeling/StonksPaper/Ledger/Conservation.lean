import StonksPaper.Ledger.Digits
import StonksPaper.Store.Machine

/-!
# Conservation

Every transaction is balanced in every commodity, so replay moves amounts between accounts and
never makes or loses any, as long as none of its additions is rounded. The totals of a commodity
stay what the opening snapshot held of it.
-/

namespace StonksPaper

open Chain

section exact

open scoped ExactArithmetic

def MutableTotals.total (totals : MutableTotals) (commodity : Commodity) : Decimal :=
  ((totals.filter (·.commodity = commodity)).map (·.balance)).sum

def LedgerProjection.total (p : LedgerProjection) (commodity : Commodity) : Decimal :=
  MutableTotals.total p.balances commodity

/-- What the opening snapshot holds of a commodity. -/
def AccountPortfolioSnapshot.openingAmount (opening : AccountPortfolioSnapshot) :
    Commodity → Decimal
  | .currency c => ((Table.get (·.currency) opening.cash c).map (·.settledAmount)).getD 0
  | .units i => ((Table.get (·.instrumentId) opening.positions i).map (·.quantity)).getD 0

/-- Each commodity adds up to what was held of it, and no asset is negative. -/
structure LedgerProjection.Conserves (p : LedgerProjection) (opening : AccountPortfolioSnapshot) :
    Prop where
  totals : ∀ commodity, p.total commodity = opening.openingAmount commodity
  assets : ∀ b ∈ p.balances, b.ledgerAccount.isAsset = true → 0 ≤ b.balance

/-! ## Posting -/

theorem MutableTotals.total_eq (totals : MutableTotals) (commodity : Commodity) :
    totals.total commodity =
      (totals.map fun b => if b.commodity = commodity then b.balance else 0).sum := by
  unfold MutableTotals.total
  induction totals with
  | nil => rfl
  | cons b totals ih =>
      by_cases hb : b.commodity = commodity
      · simp [hb, ih]
      · simp [hb, ih]

theorem MutableTotals.total_append (xs ys : MutableTotals) (commodity : Commodity) :
    MutableTotals.total (xs ++ ys) commodity = xs.total commodity + ys.total commodity := by
  simp [MutableTotals.total]

variable {a b : MutableTotals} {posting : JournalPosting} {postings : List JournalPosting}
  {commodity : Commodity}

theorem setdefault_total (a : MutableTotals) (posting : JournalPosting) :
    (MutableTotals.setdefault a posting).total commodity = a.total commodity := by
  unfold MutableTotals.setdefault
  by_cases hfresh : Table.Fresh (·.key) posting.key a
  · rw [if_pos hfresh, MutableTotals.total_append]
    have hzero : MutableTotals.total
        [⟨posting.ledgerAccount, posting.commodity, posting.quantum, 0, 0⟩] commodity = 0 := by
      simp [MutableTotals.total_eq, LedgerAccountBalance.balance]
    rw [hzero, add_zero]
  · rw [if_neg hfresh]

/-- A posting adds its signed amount to the total of its commodity. -/
theorem postTo_total (h : postTo a posting = .success b) (ha : Table.Unique (·.key) a) :
    MutableTotals.total b commodity = MutableTotals.total a commodity +
      if posting.commodity = commodity then posting.signedAmount else 0 := by
  obtain ⟨-, -, rfl⟩ := postTo_eq_success.mp h
  obtain ⟨x, hx⟩ := setdefault_has a posting
  have hkey : x.key = posting.key := Table.key_of_get hx
  have hcommodity : x.commodity = posting.commodity := (Prod.ext_iff.mp hkey).2
  have hadded : (x.add posting).commodity = posting.commodity :=
    (Prod.ext_iff.mp ((x.add_key posting).1.trans hkey)).2
  rw [← setdefault_total a posting, MutableTotals.total_eq,
    MutableTotals.total_eq, Table.sum_map_update (setdefault_unique_iff.mpr ha) hx, hcommodity,
      hadded,
    x.add_balance]
  by_cases hposted : posting.commodity = commodity
  · rw [if_pos hposted, if_pos hposted, if_pos hposted, add_sub_cancel_left]
  · rw [if_neg hposted, if_neg hposted, if_neg hposted, sub_zero]

/-- Postings add their signed amounts to the totals. -/
theorem postings_total (h : postings.foldlM postTo a = .success b) (ha : Table.Unique (·.key) a) :
    Table.Unique (·.key) b ∧ ∀ commodity, MutableTotals.total b commodity =
      MutableTotals.total a commodity +
        ((postings.filter (·.commodity = commodity)).map (·.signedAmount)).sum := by
  induction postings generalizing a with
  | nil =>
      cases h
      exact ⟨ha, fun commodity => by simp⟩
  | cons posting postings ih =>
      rw [List.foldlM_cons] at h
      obtain ⟨middle, hfirst, hrest⟩ := Attempt.bind_eq_success.mp h
      obtain ⟨hunique, htotal⟩ := ih hrest ((postTo_unique_iff hfirst).mpr ha)
      refine ⟨hunique, fun commodity => ?_⟩
      rw [htotal, postTo_total hfirst ha]
      by_cases hposted : posting.commodity = commodity
      · simp [hposted, add_assoc]
      · simp [hposted]

theorem Balanced.sum_eq_zero (h : Balanced postings) (commodity : Commodity) :
    ((postings.filter (·.commodity = commodity)).map (·.signedAmount)).sum = 0 := by
  by_cases hposted : ∃ p ∈ postings, p.commodity = commodity
  · obtain ⟨p, hp, rfl⟩ := hposted
    exact (Context.sum_exact _).symm.trans (h p hp)
  · have hnone : postings.filter (·.commodity = commodity) = [] := by
      simpa using hposted
    rw [hnone]
    rfl

/-! ## The opening -/

section opening

variable {opening : AccountPortfolioSnapshot}

theorem OpeningReadable.total (h : OpeningReadable opening) (commodity : Commodity) :
    (openingTotals opening).total commodity = opening.openingAmount commodity := by
  rw [openingTotals, MutableTotals.total_append]
  unfold MutableTotals.total
  cases commodity with
  | currency c =>
      have hcash := Table.sum_filter_key h.cash_unique (·.settledAmount) c
      simpa [List.filter_map, Function.comp_def, openingCash, openingPosition,
        LedgerAccountBalance.balance, AccountPortfolioSnapshot.openingAmount] using hcash
  | units i =>
      have hpositions := Table.sum_filter_key h.positions_unique (·.quantity) i
      simpa [List.filter_map, Function.comp_def, openingCash, openingPosition,
        LedgerAccountBalance.balance, AccountPortfolioSnapshot.openingAmount] using hpositions

theorem AccountPortfolioSnapshot.Valid.readable (h : opening.Valid) : OpeningReadable opening := by
  have hvalid := h.snapshot_valid
  simp only [AccountPortfolioSnapshot.validate, requireSortedUnique, Attempt.bind_eq_success,
    nonEmptyString_eq_success, maxLength_eq_success, raiseUnless_eq_success] at hvalid
  obtain ⟨_, haccount, _, hcash, _, hpositions, _, -, _, -, _, hcurrencies, _, hinstruments, -⟩ :=
    hvalid
  exact ⟨haccount, hcash, hpositions, h.cash, h.positions, hcurrencies.2, hinstruments.2⟩

end opening

/-! ## The run -/

section run

variable [Hashing] {opening : AccountPortfolioSnapshot} {ts rest : List JournalTransaction}
  {t : JournalTransaction} {state next final : ReplayState} {p : LedgerProjection}

/-- What every round of the loop keeps. -/
structure ReplayState.Conserves (state : ReplayState) (opening : AccountPortfolioSnapshot) :
    Prop where
  unique : Table.Unique (·.key) state.totals
  totals : ∀ commodity, state.totals.total commodity = opening.openingAmount commodity
  projection : projectionOf opening state = .success (ledgerProjection opening state)
  assets : ¬ hasNegativeAsset (ledgerProjection opening state)

theorem ReplayState.conserves_opening (h : opening.Valid)
    (hgenesis : opening.ledgerSequence = 0 ∧ opening.ledgerHash = none) :
    (ReplayState.opening opening).Conserves opening := by
  have hreadable := h.readable
  obtain ⟨-, state, hstate, hprojection⟩ :=
    replayJournal_eq_success.mp (hreadable.replay AccountPortfolioSnapshot.inBounds_exact hgenesis)
  cases hstate
  refine ⟨hreadable.totals_unique, hreadable.total, hprojection, ?_⟩
  rintro ⟨item, hitem, -, hnegative⟩
  rw [ledgerProjection, mem_sorted] at hitem
  have hvalid : item.validate = .success () := (projectionOf_eq_success.mp hprojection).1 item hitem
  have hcredit : item.creditTotal = 0 := by
    rcases List.mem_append.mp hitem with hcash | hposition
    · obtain ⟨cash, -, rfl⟩ := List.mem_map.mp hcash
      rfl
    · obtain ⟨position, -, rfl⟩ := List.mem_map.mp hposition
      rfl
  have hdebit := (LedgerAccountBalance.validate_iff.mp hvalid).2.1
  rw [LedgerAccountBalance.balance, hcredit, sub_zero] at hnegative
  exact absurd hdebit (not_le.mpr hnegative)

theorem replayTransaction_conserves (h : replayTransaction opening state t = .success next)
    (hstate : state.Conserves opening) : next.Conserves opening := by
  obtain ⟨⟨-, -, -, -, -, -, hbalanced⟩, totals, htotals, rfl, hprojection, hassets⟩ :=
    replayTransaction_eq_success.mp h
  obtain ⟨hunique, htotal⟩ := postings_total htotals hstate.unique
  refine ⟨hunique, fun commodity => ?_, hprojection, hassets⟩
  rw [htotal, hbalanced.sum_eq_zero, add_zero, hstate.totals]

theorem replayTransactions_conserves
    (h : ts.foldlM (replayTransaction opening) state = .success final)
    (hstate : state.Conserves opening) : final.Conserves opening :=
  Attempt.foldlM_invariant (I := fun state => state.Conserves opening)
    (fun _ _ _ _ hround hstate => replayTransaction_conserves hround hstate) h hstate

theorem ledgerProjection_total (state : ReplayState) (commodity : Commodity) :
    (ledgerProjection opening state).total commodity = state.totals.total commodity := by
  have hperm : (ledgerProjection opening state).balances.Perm state.totals := sorted_perm _ _
  exact ((hperm.filter _).map _).sum_eq

theorem ReplayState.Conserves.ledgerProjection (h : state.Conserves opening) :
    (ledgerProjection opening state).Conserves opening where
  totals commodity := (ledgerProjection_total state commodity).trans (h.totals commodity)
  assets b hb hasset := le_of_not_gt fun hnegative => h.assets ⟨b, hb, hasset, hnegative⟩

end run

end exact

/-! ## Every prefix of the run -/

section

variable [Arithmetic] [Hashing] {opening : AccountPortfolioSnapshot}
  {ts rest : List JournalTransaction}
  {state final : ReplayState} {p : LedgerProjection}

theorem replayTransactions_postings
    (h : rest.foldlM (replayTransaction opening) state = .success final) :
    (rest.flatMap (·.postings)).foldlM postTo state.totals = .success final.totals := by
  induction rest generalizing state with
  | nil =>
      cases h
      rfl
  | cons t rest ih =>
      rw [List.foldlM_cons] at h
      obtain ⟨middle, hfirst, hrest⟩ := Attempt.bind_eq_success.mp h
      obtain ⟨-, totals, htotals, rfl, -⟩ := replayTransaction_eq_success.mp hfirst
      rw [List.flatMap_cons, List.foldlM_append, htotals, Attempt.success_bind]
      exact ih hrest

theorem foldlM_replayTransaction_projection
    (h : ts.foldlM (replayTransaction opening) state = .success final)
    (hstate : projectionOf opening state = .success (ledgerProjection opening state)) :
    projectionOf opening final = .success (ledgerProjection opening final) :=
  Attempt.foldlM_invariant
    (I := fun state => projectionOf opening state = .success (ledgerProjection opening state))
    (fun _ _ _ _ hround _ => by
      obtain ⟨-, totals, -, rfl, hprojection, -⟩ := replayTransaction_eq_success.mp hround
      exact hprojection) h hstate

omit [Arithmetic] [Hashing] in
theorem quantum_kept {a b : MutableTotals} (hb : Table.Unique (·.key) b)
    (h : MutableTotals.KeptIn a b) {x y : LedgerAccountBalance} (hx : x ∈ a) (hy : y ∈ b)
    (hkey : y.key = x.key) : y.quantum = x.quantum := by
  obtain ⟨z, hz, hzkey, hquantum⟩ := h x hx
  rw [hb.eq hy hz (hkey.trans hzkey.symm), hquantum]

/-- Every prefix of the journal replays too, to a projection that conserves what was held. Adding
the postings of the rest to the totals that the prefix leaves is replaying the whole, and no key of
these totals is lost or changes its quantum. -/
def ReplaysByPrefix (opening : AccountPortfolioSnapshot) (ts : List JournalTransaction)
    (p : LedgerProjection) : Prop :=
  ∀ before rest, ts = before ++ rest → ∃ state final,
    replayTransactions opening before = .success state ∧
      replayJournal opening before = .success (ledgerProjection opening state) ∧
      (ledgerProjection opening state).Conserves opening ∧
      (rest.flatMap (·.postings)).foldlM postTo state.totals = .success final ∧
      p.balances = sorted (·.sortKey) final ∧
      (∀ x ∈ state.totals, ∃ y ∈ p.balances, y.key = x.key) ∧
      ∀ x ∈ state.totals, ∀ y ∈ p.balances, y.key = x.key → y.quantum = x.quantum

/-- A successful replay of which no addition is rounded conserves every commodity, and so does every
prefix of it. -/
theorem replayJournal_conserves (opening : AccountPortfolioSnapshot)
    (ts : List JournalTransaction) (p : LedgerProjection) (hopening : opening.Valid)
    (hbounds : opening.InBounds) (hkept : ReplayKept opening ts)
    (h : replayJournal opening ts = .success p) :
    p.Conserves opening ∧ ReplaysByPrefix opening ts p := by
  have hunique := replayJournal_keysUnique h
  obtain ⟨hgenesis, final, hfinal, hprojection⟩ := replayJournal_eq_success.mp h
  obtain ⟨-, -, rfl⟩ := projectionOf_eq_success.mp hprojection
  have hkeys : Table.Unique (·.key) final.totals :=
    ((sorted_perm LedgerAccountBalance.sortKey final.totals).map _).nodup_iff.mp hunique
  have hstart := ReplayState.conserves_opening hopening hgenesis
  have hconserved := replayTransactions_conserves (hkept.replayTransactions hfinal hkeys) hstart
  have hopened : projectionOf opening (.opening opening) =
      .success (ledgerProjection opening (.opening opening)) := by
    obtain ⟨-, state, hstate, hprojection⟩ :=
      replayJournal_eq_success.mp (hopening.readable.replay hbounds hgenesis)
    cases hstate
    exact hprojection
  refine ⟨hconserved.ledgerProjection, ?_⟩
  rintro before rest rfl
  rw [StonksPaper.replayTransactions, List.foldlM_append] at hfinal
  obtain ⟨state, hstate, hrest⟩ := Attempt.bind_eq_success.mp hfinal
  have hkeys' := (foldlM_replayTransaction_unique hrest).mp hkeys
  have hbefore := replayTransactions_conserves (hkept.of_prefix.replayTransactions hstate hkeys')
      hstart
  have hpostings := replayTransactions_postings hrest
  have hgrown := postings_kept hpostings
  refine ⟨state, final.totals, hstate, ?_, hbefore.ledgerProjection, hpostings, rfl, ?_, ?_⟩
  · exact replayJournal_eq_success.mpr
      ⟨hgenesis, state, hstate, foldlM_replayTransaction_projection hstate hopened⟩
  · intro x hx
    obtain ⟨y, hy, hkey, -⟩ := hgrown x hx
    exact ⟨y, mem_sorted.mpr hy, hkey⟩
  · intro x hx y hy hkey
    exact quantum_kept hkeys hgrown hx (mem_sorted.mp hy) hkey

end

namespace Scenario

open scoped PythonArithmetic CodeHashing

def quarters (cash : Decimal) : AccountPortfolioSnapshot :=
  { snapshot {} with cash := [⟨"USD", cash, 0, 1 / 4⟩] }

/-- A profit in cash. -/
def profit (amount : Decimal) : JournalTransaction :=
  journalTransaction 0 "paper" 1 50 none 0 0
    [⟨0, .assetCash "USD", .currency "USD", .debit, amount, 1 / 4, none⟩,
      ⟨1, .pnlRealized "USD", .currency "USD", .credit, amount, 1 / 4, none⟩]

theorem replayJournal_conserves_profit : ∃ p,
    replayJournal (quarters 100) [profit (1 / 2)] = .success p ∧ p.Conserves (quarters 100) ∧
      ReplaysByPrefix (quarters 100) [profit (1 / 2)] p := by
  have hvalid : (quarters 100).Valid := ⟨by decide +kernel, by decide +kernel, by decide +kernel⟩
  have hbounds : (quarters 100).InBounds := ⟨by decide +kernel, by decide +kernel⟩
  have hkept : ReplayKept (quarters 100) [profit (1 / 2)] := by decide +kernel
  have hreplays : (replayJournal (quarters 100) [profit (1 / 2)]).Succeeds := by decide +kernel
  obtain ⟨p, hp⟩ := hreplays
  exact ⟨p, hp, replayJournal_conserves (quarters 100) _ p hvalid hbounds hkept hp⟩

/-- A debit total of 30 digits is rounded, and a quarter more is held than was put in. -/
theorem rounded_total_not_conserved : (quarters (10 ^ 27 + 1 / 4)).Valid ∧
    (quarters (10 ^ 27 + 1 / 4)).InBounds ∧ (profit (1 / 2)).validate = .success () ∧
      ∃ p, replayJournal (quarters (10 ^ 27 + 1 / 4)) [profit (1 / 2)] = .success p ∧
        ¬ p.Conserves (quarters (10 ^ 27 + 1 / 4)) := by
  have hvalid : (quarters (10 ^ 27 + 1 / 4)).Valid :=
    ⟨by decide +kernel, by decide +kernel, by decide +kernel⟩
  have hbounds : (quarters (10 ^ 27 + 1 / 4)).InBounds := ⟨by decide +kernel, by decide +kernel⟩
  have hreplays : (replayJournal (quarters (10 ^ 27 + 1 / 4)) [profit (1 / 2)]).SucceedsWith
      fun p =>
      p.total (.currency "USD") - (quarters (10 ^ 27 + 1 / 4)).openingAmount (.currency "USD") =
        1 / 4 := by
    decide +kernel
  obtain ⟨p, hp, hdifference⟩ := hreplays
  refine ⟨hvalid, hbounds, by decide +kernel, p, hp, fun hconserves => ?_⟩
  rw [hconserves.totals, sub_self] at hdifference
  exact absurd hdifference (by norm_num)

end Scenario

end StonksPaper
