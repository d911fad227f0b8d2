import StonksPaper.Ledger.Postings
import StonksPaper.Ledger.Replay
import StonksPaper.Store.Ledger

/-!
# The balances of a replay

What a replayed projection says about its keys, its cash and its positions, and how one more
transaction moves it: keys and quantums stay, totals grow.
-/

namespace StonksPaper

open Chain
open scoped ExactArithmetic

/-! ## Keys of a projection -/

section keys

variable {p : LedgerProjection}

def LedgerProjection.KeysUnique (p : LedgerProjection) : Prop := Table.Unique (·.key) p.balances

theorem LedgerAccountBalance.validate_iff [Arithmetic] {b : LedgerAccountBalance} :
    b.validate = .success () ↔ 0 < b.quantum ∧ 0 ≤ b.debitTotal ∧ 0 ≤ b.creditTotal ∧
      (IsQuantized b.debitTotal b.quantum ∧ Takes b.debitTotal b.quantum) ∧
      IsQuantized b.creditTotal b.quantum ∧ Takes b.creditTotal b.quantum := by
  simp only [LedgerAccountBalance.validate, Attempt.bind_eq_success,
    nonNegativeDecimal_eq_success, positiveDecimal_eq_success, raiseUnless_eq_success]
  constructor
  · rintro ⟨_, h1, _, h2, _, h3, h4⟩
    exact ⟨h1, h2, h3, h4⟩
  · rintro ⟨h1, h2, h3, h4⟩
    exact ⟨(), h1, (), h2, (), h3, h4⟩

theorem LedgerProjection.validate_iff :
    p.validate = .success () ↔ p.accountId ≠ "" ∧ p.balances.length ≤ 1000000 ∧
      p.unvaluedInstrumentIds.length ≤ tupleLimit ∧
      (p.ledgerSequence = 0 ↔ p.ledgerHash = none) ∧
      SortedUnique (p.balances.map (·.sortKey)) ∧ SortedUnique p.unvaluedInstrumentIds := by
  simp only [LedgerProjection.validate, Attempt.bind_eq_success, nonEmptyString_eq_success,
    maxLength_eq_success, raiseUnless_eq_success]
  constructor
  · rintro ⟨_, h1, _, h2, _, h3, _, h4, _, h5, h6⟩
    exact ⟨h1, h2, h3, h4, h5, h6⟩
  · rintro ⟨h1, h2, h3, h4, h5, h6⟩
    exact ⟨(), h1, (), h2, (), h3, (), h4, (), h5, h6⟩

theorem LedgerProjection.keysUnique_of_validate (h : p.validate = .success ()) : p.KeysUnique := by
  obtain ⟨-, -, -, -, hsorted, -⟩ := LedgerProjection.validate_iff.mp h
  have hnodup : ((p.balances.map (·.key)).map LedgerKey.sortKey).Nodup := by
    rw [List.map_map]
    exact hsorted.2
  exact hnodup.of_map

theorem LedgerProjection.accountBalance_of_mem {b : LedgerAccountBalance} (h : p.KeysUnique)
    (hb : b ∈ p.balances) : p.accountBalance b.key = b.balance := by
  have hget : Table.get (·.key) p.balances b.key = some b := Table.get_of_mem h hb
  unfold LedgerProjection.accountBalance
  rw [show p.balances.find? (·.key = b.key) = some b from hget]
  rfl

def cashOfKey : LedgerKey → Option Currency
  | (.assetCash c, .currency c') => if c = c' then some c else none
  | _ => none

def unitsOfKey : LedgerKey → Option UUID
  | (.inventoryUnits i, .units i') => if i = i' then some i else none
  | _ => none

theorem cashOfKey_eq_some {key : LedgerKey} {c : Currency} :
    c ∈ cashOfKey key ↔ key = (.assetCash c, .currency c) := by
  obtain ⟨account, commodity⟩ := key
  cases account <;> cases commodity <;> simp [cashOfKey]
  rename_i x y
  constructor
  · rintro ⟨rfl, rfl⟩
    exact ⟨rfl, rfl⟩
  · rintro ⟨rfl, rfl⟩
    exact ⟨rfl, rfl⟩

theorem unitsOfKey_eq_some {key : LedgerKey} {i : UUID} :
    i ∈ unitsOfKey key ↔ key = (.inventoryUnits i, .units i) := by
  obtain ⟨account, commodity⟩ := key
  cases account <;> cases commodity <;> simp [unitsOfKey]
  rename_i x y
  constructor
  · rintro ⟨rfl, rfl⟩
    exact ⟨rfl, rfl⟩
  · rintro ⟨rfl, rfl⟩
    exact ⟨rfl, rfl⟩

theorem cashQuantums_eq :
    cashQuantums p = p.balances.filterMap fun b => (cashOfKey b.key).map (·, b.quantum) := by
  unfold cashQuantums
  congr 1
  funext b
  simp only [LedgerAccountBalance.key]
  cases b.ledgerAccount <;> cases b.commodity <;> simp [cashOfKey]

theorem positionQuantums_eq :
    positionQuantums p = p.balances.filterMap fun b => (unitsOfKey b.key).map (·, b.quantum) := by
  unfold positionQuantums
  congr 1
  funext b
  simp only [LedgerAccountBalance.key]
  cases b.ledgerAccount <;> cases b.commodity <;> simp [unitsOfKey]

theorem mem_positionQuantums {i : UUID} {q : Decimal} :
    (i, q) ∈ positionQuantums p ↔
      ∃ b ∈ p.balances, b.key = (.inventoryUnits i, .units i) ∧ b.quantum = q := by
  simp only [positionQuantums_eq, List.mem_filterMap, Option.map_eq_some_iff, Prod.mk.injEq]
  refine exists_congr fun b => and_congr_right fun _ => ?_
  constructor
  · rintro ⟨i', hi, rfl, hq⟩
    exact ⟨unitsOfKey_eq_some.mp hi, hq⟩
  · rintro ⟨hkey, hq⟩
    exact ⟨i, unitsOfKey_eq_some.mpr hkey, rfl, hq⟩

theorem cashQuantums_unique (h : p.KeysUnique) : Table.Unique (·.1) (cashQuantums p) := by
  have hkeys : (cashQuantums p).map (·.1) = (p.balances.map (·.key)).filterMap cashOfKey := by
    rw [cashQuantums_eq, List.map_filterMap, List.filterMap_map]
    congr 1
    funext b
    simp [Function.comp_def]
  unfold Table.Unique
  rw [hkeys]
  refine List.Nodup.filterMap (fun a b c ha hb => ?_) h
  rw [cashOfKey_eq_some.mp ha, cashOfKey_eq_some.mp hb]

theorem positionQuantums_unique (h : p.KeysUnique) : Table.Unique (·.1) (positionQuantums p) := by
  have hkeys : (positionQuantums p).map (·.1) = (p.balances.map (·.key)).filterMap unitsOfKey := by
    rw [positionQuantums_eq, List.map_filterMap, List.filterMap_map]
    congr 1
    funext b
    simp [Function.comp_def]
  unfold Table.Unique
  rw [hkeys]
  refine List.Nodup.filterMap (fun a b c ha hb => ?_) h
  rw [unitsOfKey_eq_some.mp ha, unitsOfKey_eq_some.mp hb]

end keys

/-! ## One more transaction -/

def MutableTotals.KeptIn (a b : MutableTotals) : Prop :=
  ∀ x ∈ a, ∃ y ∈ b, y.key = x.key ∧ y.quantum = x.quantum

theorem MutableTotals.KeptIn.refl (a : MutableTotals) : MutableTotals.KeptIn a a :=
  fun x hx => ⟨x, hx, rfl, rfl⟩

theorem MutableTotals.KeptIn.trans {a b c : MutableTotals} (hab : MutableTotals.KeptIn a b)
    (hbc : MutableTotals.KeptIn b c) : MutableTotals.KeptIn a c := by
  intro x hx
  obtain ⟨y, hy, hkey, hquantum⟩ := hab x hx
  obtain ⟨z, hz, hkey', hquantum'⟩ := hbc y hy
  exact ⟨z, hz, hkey'.trans hkey, hquantum'.trans hquantum⟩

section

variable [Arithmetic]

theorem LedgerAccountBalance.add_key (b : LedgerAccountBalance) (posting : JournalPosting) :
    (b.add posting).key = b.key ∧ (b.add posting).quantum = b.quantum := by
  unfold LedgerAccountBalance.add
  cases posting.side <;> exact ⟨rfl, rfl⟩

theorem postTo_kept {a b : MutableTotals} {posting : JournalPosting}
    (h : postTo a posting = .success b) : MutableTotals.KeptIn a b := by
  simp only [postTo, Attempt.bind_eq_success, failUnless_eq_success, Attempt.pure_eq] at h
  obtain ⟨_, -, _, -, h⟩ := h
  cases h
  intro x hx
  have hset : x ∈ MutableTotals.setdefault a posting := by
    unfold MutableTotals.setdefault
    split
    · exact List.mem_append_left _ hx
    · exact hx
  refine ⟨_, Table.mem_update.mpr ⟨x, hset, rfl⟩, ?_⟩
  split
  · exact x.add_key posting
  · exact ⟨rfl, rfl⟩

theorem postings_kept {a b : MutableTotals} {postings : List JournalPosting}
    (h : postings.foldlM postTo a = .success b) : MutableTotals.KeptIn a b :=
  Attempt.foldlM_induct (P := fun _ a b => MutableTotals.KeptIn a b) (fun a => .refl a)
    (fun _ _ _ _ _ hfirst hrest => (postTo_kept hfirst).trans hrest) h

/-- A key of the totals after a posting was there before, or is the posting's. -/
theorem postTo_keys {a b : MutableTotals} {posting : JournalPosting}
    (h : postTo a posting = .success b) :
    ∀ y ∈ b, (∃ x ∈ a, x.key = y.key) ∨ posting.key = y.key := by
  simp only [postTo, Attempt.bind_eq_success, failUnless_eq_success, Attempt.pure_eq] at h
  obtain ⟨_, -, _, -, h⟩ := h
  cases h
  intro y hy
  obtain ⟨x, hx, rfl⟩ := Table.mem_update.mp hy
  have hkey : (if x.key = posting.key then x.add posting else x).key = x.key := by
    split
    · exact (x.add_key posting).1
    · rfl
  rw [hkey]
  unfold MutableTotals.setdefault at hx
  split at hx
  · rcases List.mem_append.mp hx with hold | hnew
    · exact .inl ⟨x, hold, rfl⟩
    · rw [List.mem_singleton.mp hnew]
      exact .inr rfl
  · exact .inl ⟨x, hx, rfl⟩

theorem postings_keys {a b : MutableTotals} {postings : List JournalPosting}
    (h : postings.foldlM postTo a = .success b) :
    ∀ y ∈ b, (∃ x ∈ a, x.key = y.key) ∨ ∃ p ∈ postings, p.key = y.key := by
  refine Attempt.foldlM_induct (P := fun postings a b => ∀ y ∈ b,
    (∃ x ∈ a, x.key = y.key) ∨ ∃ p ∈ postings, p.key = y.key)
    (fun a y hy => .inl ⟨y, hy, rfl⟩) ?_ h
  intro posting postings a b c hfirst hrest y hy
  rcases hrest y hy with ⟨x, hx, hkey⟩ | ⟨p, hp, hkey⟩
  · rcases postTo_keys hfirst x hx with ⟨w, hw, hkey'⟩ | hkey'
    · exact .inl ⟨w, hw, hkey'.trans hkey⟩
    · exact .inr ⟨posting, List.mem_cons_self .., hkey'.trans hkey⟩
  · exact .inr ⟨p, List.mem_cons_of_mem _ hp, hkey⟩

variable [Hashing] {opening : AccountPortfolioSnapshot} {ts : List JournalTransaction}
  {t : JournalTransaction} {before after : LedgerProjection}

theorem replayJournal_keysUnique (h : replayJournal opening ts = .success before) :
    before.KeysUnique := by
  obtain ⟨-, state, -, h⟩ := replayJournal_eq_success.mp h
  obtain ⟨-, hvalid, rfl⟩ := projectionOf_eq_success.mp h
  exact LedgerProjection.keysUnique_of_validate hvalid

/-- Replaying one more transaction posts it to the totals so far. -/
theorem replayJournal_posts (hbefore : replayJournal opening ts = .success before)
    (hafter : replayJournal opening (ts ++ [t]) = .success after) :
    ∃ state totals, t.postings.foldlM postTo state.totals = .success totals ∧
      before = ledgerProjection opening state ∧
      after = ledgerProjection opening
        ⟨totals, t.sequence, some t.transactionHash, t.occurredAt⟩ := by
  obtain ⟨-, state, hstate, hprojection⟩ := replayJournal_eq_success.mp hbefore
  obtain ⟨-, next, hnext, hprojection'⟩ := replayJournal_eq_success.mp hafter
  obtain ⟨-, -, rfl⟩ := projectionOf_eq_success.mp hprojection
  obtain ⟨-, -, rfl⟩ := projectionOf_eq_success.mp hprojection'
  unfold replayTransactions at hnext
  rw [List.foldlM_append] at hnext
  obtain ⟨state', hstate', hlast⟩ := Attempt.bind_eq_success.mp hnext
  obtain rfl : state = state' := Attempt.success.inj (hstate.symm.trans hstate')
  simp only [List.foldlM_cons, List.foldlM_nil, replayTransaction, Attempt.bind_eq_success,
    failUnless_eq_success, Attempt.pure_eq] at hlast
  obtain ⟨_, ⟨_, -, totals, htotals, _, -, _, -, hnext'⟩, hlast⟩ := hlast
  cases hnext'
  cases hlast
  exact ⟨state, totals, htotals, rfl, rfl⟩

theorem replayJournal_concat (hbefore : replayJournal opening ts = .success before)
    (hafter : replayJournal opening (ts ++ [t]) = .success after) :
    MutableTotals.KeptIn before.balances after.balances ∧ after.ledgerSequence = t.sequence ∧
      after.ledgerHash = some t.transactionHash := by
  obtain ⟨state, totals, htotals, rfl, rfl⟩ := replayJournal_posts hbefore hafter
  refine ⟨fun x hx => ?_, rfl, rfl⟩
  obtain ⟨y, hy, hkey, hquantum⟩ := postings_kept htotals x (mem_sorted.mp hx)
  exact ⟨y, mem_sorted.mpr hy, hkey, hquantum⟩

theorem replayJournal_keys (hbefore : replayJournal opening ts = .success before)
    (hafter : replayJournal opening (ts ++ [t]) = .success after) :
    ∀ b ∈ after.balances, (∃ a ∈ before.balances, a.key = b.key) ∨
      ∃ p ∈ t.postings, p.key = b.key := by
  obtain ⟨state, totals, htotals, rfl, rfl⟩ := replayJournal_posts hbefore hafter
  intro b hb
  rcases postings_keys htotals b (mem_sorted.mp hb) with ⟨a, ha, hkey⟩ | hposted
  · exact .inl ⟨a, mem_sorted.mpr ha, hkey⟩
  · exact .inr hposted

end

section

variable [Hashing] {opening : AccountPortfolioSnapshot} {ts : List JournalTransaction}
  {t : JournalTransaction} {before after : LedgerProjection}

/-! ## The balances of one more transaction -/

omit [Hashing] in
def MutableTotals.balance (totals : MutableTotals) (key : LedgerKey) : Decimal :=
  ((Table.get (·.key) totals key).map (·.balance)).getD 0

omit [Hashing] in
theorem LedgerAccountBalance.add_balance (b : LedgerAccountBalance) (posting : JournalPosting) :
    (b.add posting).balance = b.balance + posting.signedAmount := by
  unfold LedgerAccountBalance.add LedgerAccountBalance.balance JournalPosting.signedAmount
  cases posting.side with
  | debit =>
      show b.debitTotal + posting.amount - b.creditTotal = _
      rw [if_pos rfl, kept_exact]
      ring
  | credit =>
      show b.debitTotal - (b.creditTotal + posting.amount) = _
      rw [if_neg (by decide), kept_exact, kept_exact]
      ring

omit [Hashing] in
/-- Making sure that a key has an entry changes no balance. -/
theorem setdefault_balance (totals : MutableTotals) (posting : JournalPosting) (key : LedgerKey) :
    (MutableTotals.setdefault totals posting).balance key = totals.balance key := by
  unfold MutableTotals.setdefault
  by_cases hfresh : Table.Fresh (·.key) posting.key totals
  · let entry : LedgerAccountBalance :=
      ⟨posting.ledgerAccount, posting.commodity, posting.quantum, 0, 0⟩
    rw [if_pos hfresh]
    unfold MutableTotals.balance
    by_cases hkey : posting.key = key
    · subst hkey
      have hnone : Table.get (·.key) totals posting.key = none := Table.get_eq_none.mpr hfresh
      have hself : Table.get (·.key) (totals ++ [entry]) posting.key = some entry :=
        Table.get_concat_self hfresh
      rw [hnone, hself]
      exact sub_zero 0
    · have hother : Table.get (·.key) (totals ++ [entry]) key = Table.get (·.key) totals key :=
        Table.get_concat_of_ne hkey
      rw [hother]
  · rw [if_neg hfresh]

omit [Hashing] in
theorem setdefault_has (totals : MutableTotals) (posting : JournalPosting) :
    ∃ x, Table.get (·.key) (MutableTotals.setdefault totals posting) posting.key = some x := by
  unfold MutableTotals.setdefault
  by_cases hfresh : Table.Fresh (·.key) posting.key totals
  · rw [if_pos hfresh]
    exact ⟨_, Table.get_concat_self hfresh⟩
  · rw [if_neg hfresh]
    exact Option.ne_none_iff_exists'.mp fun hnone => hfresh (Table.get_eq_none.mp hnone)

omit [Hashing] in
theorem postTo_balance {a b : MutableTotals} {posting : JournalPosting} {key : LedgerKey}
    (h : postTo a posting = .success b) :
    b.balance key = a.balance key + if posting.key = key then posting.signedAmount else 0 := by
  simp only [postTo, Attempt.bind_eq_success, failUnless_eq_success, Attempt.pure_eq] at h
  obtain ⟨_, -, _, -, h⟩ := h
  cases h
  rw [← setdefault_balance a posting key]
  unfold MutableTotals.balance
  rw [Table.get_update fun r _ => (r.add_key posting).1]
  by_cases hkey : posting.key = key
  · subst hkey
    obtain ⟨x, hx⟩ := setdefault_has a posting
    rw [if_pos rfl, hx, Option.map_some, Option.map_some, Option.map_some,
      if_pos (Table.key_of_get hx)]
    exact x.add_balance posting
  · rw [if_neg hkey, add_zero]
    cases hx : Table.get (·.key) (MutableTotals.setdefault a posting) key with
    | none => rfl
    | some x =>
        have hother : ¬ x.key = posting.key := fun h => hkey (h.symm.trans (Table.key_of_get hx))
        rw [Option.map_some, if_neg hother]

omit [Hashing] in
theorem postings_balance {a b : MutableTotals} {postings : List JournalPosting} {key : LedgerKey}
    (h : postings.foldlM postTo a = .success b) :
    b.balance key = a.balance key +
      ((postings.filter (·.key = key)).map (·.signedAmount)).sum := by
  refine Attempt.foldlM_induct
    (P := fun postings a b => b.balance key = a.balance key +
      ((postings.filter (·.key = key)).map (·.signedAmount)).sum) (fun a => by simp) ?_ h
  intro posting postings a b c hfirst hrest
  rw [hrest, postTo_balance hfirst]
  by_cases hkey : posting.key = key
  · simp [hkey, add_assoc]
  · simp [hkey]

theorem ledgerProjection_balance {state : ReplayState} {key : LedgerKey}
    (h : (ledgerProjection opening state).KeysUnique) :
    (ledgerProjection opening state).accountBalance key =
    MutableTotals.balance state.totals key := by
  have hperm : (ledgerProjection opening state).balances.Perm state.totals := sorted_perm _ _
  have hget := Table.get_of_perm (k := key) h hperm.symm
  unfold MutableTotals.balance
  rw [hget]
  rfl

/-- Transactions move the balances of the totals by what they move. -/
theorem foldlM_replayTransaction_balance {state final : ReplayState}
    (h : ts.foldlM (replayTransaction opening) state = .success final) (key : LedgerKey) :
    MutableTotals.balance final.totals key =
      MutableTotals.balance state.totals key + (ts.map (·.moved (· = key))).sum := by
  induction ts generalizing state with
  | nil =>
      cases h
      exact (add_zero _).symm
  | cons t ts ih =>
      rw [List.foldlM_cons] at h
      obtain ⟨next, hround, hrest⟩ := Attempt.bind_eq_success.mp h
      obtain ⟨-, totals, hposted, rfl, -⟩ := replayTransaction_eq_success.mp hround
      rw [ih hrest, postings_balance hposted, List.map_cons, List.sum_cons, add_assoc]
      rfl

theorem replayJournal_balance (hbefore : replayJournal opening ts = .success before)
    (hafter : replayJournal opening (ts ++ [t]) = .success after) (key : LedgerKey) :
    after.accountBalance key = before.accountBalance key + t.moved (· = key) := by
  have hunique := replayJournal_keysUnique hbefore
  have hunique' := replayJournal_keysUnique hafter
  obtain ⟨state, totals, htotals, rfl, rfl⟩ := replayJournal_posts hbefore hafter
  rw [ledgerProjection_balance hunique, ledgerProjection_balance hunique']
  exact postings_balance htotals

/-! ## The opening -/

omit [Hashing] in
/-- The fields of the snapshot took its amounts. -/
structure AccountPortfolioSnapshot.InBounds [Arithmetic] (opening : AccountPortfolioSnapshot) :
    Prop where
  cash : ∀ b ∈ opening.cash, Takes b.settledAmount b.quantum
  positions : ∀ b ∈ opening.positions, Takes b.quantity b.quantum

omit [Hashing] in
theorem AccountPortfolioSnapshot.inBounds_exact : opening.InBounds :=
  ⟨fun _ _ => takes_exact _ _, fun _ _ => takes_exact _ _⟩

omit [Hashing] in
theorem openingCash_validate [Arithmetic] {cash : CashBalance} (h : cash.validate = .success ())
    (htakes : Takes cash.settledAmount cash.quantum) :
    (openingCash cash).validate = .success () := by
  simp only [CashBalance.validate, Attempt.bind_eq_success, nonNegativeDecimal_eq_success,
    positiveDecimal_eq_success, raiseUnless_eq_success] at h
  obtain ⟨_, -, _, hsettled, _, -, _, hquantum, _, -, hquantized, -⟩ := h
  exact LedgerAccountBalance.validate_iff.mpr
    ⟨hquantum, hsettled, le_rfl, ⟨hquantized, htakes⟩, .zero hquantum, takes_zero _⟩

omit [Hashing] in
theorem openingPosition_validate [Arithmetic] {position : PositionBalance}
    (h : position.validate = .success ()) (htakes : Takes position.quantity position.quantum) :
    (openingPosition position).validate = .success () := by
  simp only [PositionBalance.validate, Attempt.bind_eq_success, nonNegativeDecimal_eq_success,
    positiveDecimal_eq_success, raiseUnless_eq_success] at h
  obtain ⟨_, hquantity, _, -, _, -, _, hquantum, _, -, _, -, hquantized, -⟩ := h
  exact LedgerAccountBalance.validate_iff.mpr
    ⟨hquantum, hquantity, le_rfl, ⟨hquantized, htakes⟩, .zero hquantum, takes_zero _⟩

/-- What the state read after a registration says of the snapshot. -/
structure OpeningReadable (opening : AccountPortfolioSnapshot) : Prop where
  account : opening.accountId ≠ ""
  cash_length : opening.cash.length ≤ 64
  positions_length : opening.positions.length ≤ tupleLimit
  cash : ∀ b ∈ opening.cash, b.validate = .success ()
  positions : ∀ b ∈ opening.positions, b.validate = .success ()
  cash_unique : Table.Unique (·.currency) opening.cash
  positions_unique : Table.Unique (·.instrumentId) opening.positions

omit [Hashing] in
theorem OpeningReadable.totals_unique (h : OpeningReadable opening) :
    Table.Unique (·.key) (openingTotals opening) := by
  have hcash : (opening.cash.map openingCash).map (·.key) =
      (opening.cash.map (·.currency)).map fun c => (.assetCash c, .currency c) := by
    simp [openingCash, LedgerAccountBalance.key, Function.comp_def]
  have hpositions : (opening.positions.map openingPosition).map (·.key) =
      (opening.positions.map (·.instrumentId)).map fun i => (.inventoryUnits i, .units i) := by
    simp [openingPosition, LedgerAccountBalance.key, Function.comp_def]
  unfold Table.Unique openingTotals
  rw [List.map_append, hcash, hpositions]
  refine List.Nodup.append (h.cash_unique.map fun a b hab => ?_)
    (h.positions_unique.map fun a b hab => ?_) ?_
  · simpa using hab
  · simpa using hab
  · intro key hleft hright
    obtain ⟨c, -, rfl⟩ := List.mem_map.mp hleft
    obtain ⟨i, -, hi⟩ := List.mem_map.mp hright
    cases hi

/-- An opening that is readable replays on its own. -/
theorem OpeningReadable.replay [Arithmetic] (h : OpeningReadable opening)
    (hbounds : opening.InBounds) (hgenesis : opening.ledgerSequence = 0 ∧ opening.ledgerHash =
    none) :
    replayJournal opening [] =
      .success (ledgerProjection opening (.opening opening)) := by
  refine replayJournal_eq_success.mpr ⟨hgenesis, .opening opening, rfl, ?_⟩
  refine projectionOf_eq_success.mpr ⟨?_, ?_, rfl⟩
  · intro b hb
    rcases List.mem_append.mp hb with hcash | hposition
    · obtain ⟨cash, hmem, rfl⟩ := List.mem_map.mp hcash
      exact openingCash_validate (h.cash cash hmem) (hbounds.cash cash hmem)
    · obtain ⟨position, hmem, rfl⟩ := List.mem_map.mp hposition
      exact openingPosition_validate (h.positions position hmem) (hbounds.positions position hmem)
  · have hlength : (sorted (·.sortKey) (openingTotals opening)).length =
        opening.cash.length + opening.positions.length := by
      rw [(sorted_perm _ _).length_eq]
      simp [openingTotals]
    have hcash := h.cash_length
    have hpositions := h.positions_length
    have hunvalued : (sorted id ((opening.positions.filter (0 < ·.quantity)).map
        (·.instrumentId))).length ≤ tupleLimit := by
      rw [(sorted_perm _ _).length_eq, List.length_map]
      exact (List.length_filter_le _ _).trans hpositions
    have hsorted : SortedUnique ((sorted (·.sortKey) (openingTotals opening)).map (·.sortKey)) := by
      refine sortedUnique_map_sorted.mpr ?_
      have hkeys : (openingTotals opening).map (·.sortKey) =
          ((openingTotals opening).map (·.key)).map LedgerKey.sortKey := by
        simp [LedgerAccountBalance.sortKey, Function.comp_def]
      rw [hkeys]
      exact h.totals_unique.map LedgerKey.sortKey_injective
    have hinstruments : SortedUnique (sorted id ((opening.positions.filter (0 < ·.quantity)).map
        (·.instrumentId))) := by
      have hnodup : ((opening.positions.filter (0 < ·.quantity)).map (·.instrumentId)).Nodup :=
        h.positions_unique.filter _
      have hsorted : SortedUnique ((sorted id ((opening.positions.filter (0 < ·.quantity)).map
          (·.instrumentId))).map id) := sortedUnique_map_sorted.mpr (by simpa using hnodup)
      simpa using hsorted
    unfold tupleLimit at hpositions
    refine LedgerProjection.validate_iff.mpr
      ⟨h.account, ?_, hunvalued, by simp [ledgerProjection, ReplayState.opening], hsorted,
        hinstruments⟩
    change (sorted (·.sortKey) (openingTotals opening)).length ≤ 1000000
    omega

theorem opening_cashQuantums :
    (opening.cash.map fun b => (b.currency, b.quantum)).Perm
      (cashQuantums (ledgerProjection opening (.opening opening))) := by
  have hopening : (openingTotals opening).filterMap
      (fun b => (cashOfKey b.key).map (·, b.quantum)) =
        opening.cash.map fun b => (b.currency, b.quantum) := by
    simp [openingTotals, List.filterMap_append, List.filterMap_map, Function.comp_def, openingCash,
      openingPosition, LedgerAccountBalance.key, cashOfKey]
  rw [cashQuantums_eq, ← hopening]
  exact ((sorted_perm _ _).symm).filterMap _

theorem opening_positionQuantums :
    (opening.positions.map fun b => (b.instrumentId, b.quantum)).Perm
      (positionQuantums (ledgerProjection opening (.opening opening))) := by
  have hopening : (openingTotals opening).filterMap
      (fun b => (unitsOfKey b.key).map (·, b.quantum)) =
        opening.positions.map fun b => (b.instrumentId, b.quantum) := by
    simp [openingTotals, List.filterMap_append, List.filterMap_map, Function.comp_def, openingCash,
      openingPosition, LedgerAccountBalance.key, unitsOfKey]
  rw [positionQuantums_eq, ← hopening]
  exact ((sorted_perm _ _).symm).filterMap _

theorem OpeningReadable.cash_settled (h : OpeningReadable opening) {b : CashBalance}
    (hb : b ∈ opening.cash) :
    (ledgerProjection opening (.opening opening)).cash b.currency = b.settledAmount := by
  have hkeys : (ledgerProjection opening (.opening opening)).KeysUnique := by
    unfold LedgerProjection.KeysUnique Table.Unique
    exact (((sorted_perm _ _).map _).nodup_iff).mpr h.totals_unique
  have hmem : openingCash b ∈ (ledgerProjection opening (.opening opening)).balances :=
    mem_sorted.mpr (List.mem_append_left _ (List.mem_map_of_mem hb))
  have hbalance := LedgerProjection.accountBalance_of_mem hkeys hmem
  simpa [LedgerProjection.cash, openingCash, LedgerAccountBalance.key,
    LedgerAccountBalance.balance] using hbalance

theorem OpeningReadable.position_quantity (h : OpeningReadable opening) {b : PositionBalance}
    (hb : b ∈ opening.positions) :
    (ledgerProjection opening (.opening opening)).position b.instrumentId = b.quantity := by
  have hkeys : (ledgerProjection opening (.opening opening)).KeysUnique := by
    unfold LedgerProjection.KeysUnique Table.Unique
    exact (((sorted_perm _ _).map _).nodup_iff).mpr h.totals_unique
  have hmem : openingPosition b ∈ (ledgerProjection opening (.opening opening)).balances :=
    mem_sorted.mpr (List.mem_append_right _ (List.mem_map_of_mem hb))
  have hbalance := LedgerProjection.accountBalance_of_mem hkeys hmem
  simpa [LedgerProjection.position, openingPosition, LedgerAccountBalance.key,
    LedgerAccountBalance.balance] using hbalance

end

end StonksPaper
