import Mathlib.Data.List.Infix
import StonksPaper.Ledger.Balances

/-!
# Replay within the digits of the context

The running totals and the sums of `is_balanced` keep as many digits as the context has. A journal
of which no such addition is rounded replays as in exact arithmetic, to the same projection.
-/

namespace StonksPaper

open Chain
open scoped ExactArithmetic

/-! ## The additions of a replay -/

def addedTo (side : JournalSide) (key : LedgerKey) (postings : List JournalPosting) : Decimal :=
  ((postings.filter fun p => p.side = side ∧ p.key = key).map (·.amount)).sum

def LedgerAccountBalance.totalOn (self : LedgerAccountBalance) : JournalSide → Decimal
  | .debit => self.debitTotal
  | .credit => self.creditTotal

def MutableTotals.totalOn (totals : MutableTotals) (side : JournalSide) (key : LedgerKey) :
    Decimal :=
  ((Table.get (·.key) totals key).map (·.totalOn side)).getD 0

def balanceAfter (opening : AccountPortfolioSnapshot) (ts : List JournalTransaction)
    (key : LedgerKey) : Decimal :=
  (openingTotals opening).balance key + (ts.map (·.moved (· = key))).sum

/-- No addition of a posting to its running total is rounded. -/
def TotalsKept [Arithmetic] (totals : MutableTotals) (postings : List JournalPosting) : Prop :=
  ∀ posted p, posted ++ [p] <+: postings →
    IsKept (totals.totalOn p.side p.key + addedTo p.side p.key (posted ++ [p]))

/-- No negated credit and no partial sum of `is_balanced` is rounded. -/
structure SumsKept [Arithmetic] (postings : List JournalPosting) : Prop where
  credits : ∀ p ∈ postings, p.side = .credit → IsKept p.amount
  sums : ∀ commodity summed, summed <+: (postings.filter (·.commodity = commodity)).map
    (fun p => exactly p.signedAmount) → IsKept summed.sum

/-- No addition of a replay is rounded. -/
structure ReplayKept [Arithmetic] (opening : AccountPortfolioSnapshot)
    (ts : List JournalTransaction) : Prop where
  totals : TotalsKept (openingTotals opening) (ts.flatMap (·.postings))
  sums : ∀ t ∈ ts, SumsKept t.postings

theorem totalsKept_iff [Arithmetic] {totals : MutableTotals} {postings : List JournalPosting} :
    TotalsKept totals postings ↔ ∀ summed ∈ postings.inits, ∀ p ∈ summed.getLast?,
      IsKept (totals.totalOn p.side p.key + addedTo p.side p.key summed) := by
  constructor
  · intro h summed hsummed p hp
    obtain ⟨posted, rfl⟩ := List.getLast?_eq_some_iff.mp hp
    exact h posted p ((List.mem_inits _ _).mp hsummed)
  · intro h posted p hpre
    exact h (posted ++ [p]) ((List.mem_inits _ _).mpr hpre) p (by simp)

instance [Arithmetic] (totals : MutableTotals) (postings : List JournalPosting) :
    Decidable (TotalsKept totals postings) := decidable_of_iff' _ totalsKept_iff

/-- The commodities that are not posted to have no sums. -/
theorem sumsKept_iff [Arithmetic] {postings : List JournalPosting} : SumsKept postings ↔
    (∀ p ∈ postings, p.side = .credit → IsKept p.amount) ∧ ∀ q ∈ postings,
      ∀ summed ∈ ((postings.filter (·.commodity = q.commodity)).map
        (fun p => exactly p.signedAmount)).inits, IsKept summed.sum := by
  constructor
  · intro h
    exact ⟨h.credits, fun q _ summed hsummed => h.sums _ summed ((List.mem_inits _ _).mp hsummed)⟩
  · rintro ⟨hcredits, hsums⟩
    refine ⟨hcredits, fun commodity summed hsummed => ?_⟩
    by_cases hposted : ∃ q ∈ postings, q.commodity = commodity
    · obtain ⟨q, hq, rfl⟩ := hposted
      exact hsums q hq summed ((List.mem_inits _ _).mpr hsummed)
    · have hnone : postings.filter (·.commodity = commodity) = [] := by simpa using hposted
      rw [hnone, List.map_nil, List.prefix_nil] at hsummed
      rw [hsummed]
      exact kept_zero

instance [Arithmetic] (postings : List JournalPosting) : Decidable (SumsKept postings) :=
  decidable_of_iff' _ sumsKept_iff

instance [Arithmetic] (opening : AccountPortfolioSnapshot) (ts : List JournalTransaction) :
    Decidable (ReplayKept opening ts) :=
  decidable_of_iff (TotalsKept (openingTotals opening) (ts.flatMap (·.postings)) ∧
    ∀ t ∈ ts, SumsKept t.postings) ⟨fun h => ⟨h.1, h.2⟩, fun h => ⟨h.1, h.2⟩⟩

theorem addedTo_cons (side : JournalSide) (key : LedgerKey) (p : JournalPosting)
    (postings : List JournalPosting) : addedTo side key (p :: postings) =
      (if p.side = side ∧ p.key = key then p.amount else 0) + addedTo side key postings := by
  unfold addedTo
  by_cases hp : p.side = side ∧ p.key = key
  · simp [hp]
  · simp [hp]

theorem ReplayKept.of_prefix [Arithmetic] {opening : AccountPortfolioSnapshot}
    {before rest : List JournalTransaction} (h : ReplayKept opening (before ++ rest)) :
    ReplayKept opening before where
  totals posted p hpre := h.totals posted p <| by
    rw [List.flatMap_append]
    exact hpre.trans (List.prefix_append _ _)
  sums t ht := h.sums t (List.mem_append_left _ ht)

/-! ## One posting -/

section

variable [Arithmetic] {a b : MutableTotals} {posting : JournalPosting}
  {postings : List JournalPosting}

omit [Arithmetic] in
theorem setdefault_unique_iff :
    Table.Unique (·.key) (MutableTotals.setdefault a posting) ↔ Table.Unique (·.key) a := by
  unfold MutableTotals.setdefault
  by_cases hfresh : Table.Fresh (·.key) posting.key a
  · rw [if_pos hfresh]
    refine ⟨fun h => ?_, fun h => h.concat hfresh⟩
    unfold Table.Unique at h ⊢
    rw [List.map_append] at h
    exact h.of_append_left
  · rw [if_neg hfresh]

theorem postTo_eq_success : postTo a posting = .success b ↔
    recognized posting.ledgerAccount posting.commodity ∧
      (∀ x ∈ MutableTotals.setdefault a posting, x.key = posting.key →
        x.quantum = posting.quantum) ∧
      b = Table.update (·.key = posting.key) (·.add posting)
      (MutableTotals.setdefault a posting) := by
  simp only [postTo, Attempt.bind_eq_success, failUnless_eq_success, Attempt.pure_eq,
    Attempt.success.injEq]
  constructor
  · rintro ⟨_, hknown, _, hquantum, h⟩
    exact ⟨hknown, hquantum, h.symm⟩
  · rintro ⟨hknown, hquantum, h⟩
    exact ⟨(), hknown, (), hquantum, h.symm⟩

theorem postTo_unique_iff (h : postTo a posting = .success b) :
    Table.Unique (·.key) b ↔ Table.Unique (·.key) a := by
  obtain ⟨-, -, rfl⟩ := postTo_eq_success.mp h
  rw [← @setdefault_unique_iff a posting]
  unfold Table.Unique
  rw [Table.map_update fun r _ => (r.add_key posting).1]

theorem postings_unique_iff (h : postings.foldlM postTo a = .success b) :
    Table.Unique (·.key) b ↔ Table.Unique (·.key) a := by
  induction postings generalizing a with
  | nil =>
      cases h
      exact .rfl
  | cons posting postings ih =>
      rw [List.foldlM_cons] at h
      obtain ⟨middle, hfirst, hrest⟩ := Attempt.bind_eq_success.mp h
      exact (ih hrest).trans (postTo_unique_iff hfirst)

end

section

variable {a b : MutableTotals} {posting : JournalPosting} {postings : List JournalPosting}

/-- A new entry starts at zero on both sides. -/
theorem setdefault_totalOn (a : MutableTotals) (posting : JournalPosting) (side : JournalSide)
    (key : LedgerKey) : (MutableTotals.setdefault a posting).totalOn side key =
    a.totalOn side key := by
  unfold MutableTotals.setdefault
  by_cases hfresh : Table.Fresh (·.key) posting.key a
  · let entry : LedgerAccountBalance :=
      ⟨posting.ledgerAccount, posting.commodity, posting.quantum, 0, 0⟩
    rw [if_pos hfresh]
    unfold MutableTotals.totalOn
    by_cases hkey : posting.key = key
    · subst hkey
      have hnone : Table.get (·.key) a posting.key = none := Table.get_eq_none.mpr hfresh
      have hself : Table.get (·.key) (a ++ [entry]) posting.key = some entry :=
        Table.get_concat_self hfresh
      rw [hnone, hself]
      cases side <;> rfl
    · have hother : Table.get (·.key) (a ++ [entry]) key = Table.get (·.key) a key :=
        Table.get_concat_of_ne hkey
      rw [hother]
  · rw [if_neg hfresh]

theorem LedgerAccountBalance.add_totalOn (b : LedgerAccountBalance) (posting : JournalPosting)
    (side : JournalSide) : (b.add posting).totalOn side =
      b.totalOn side + if posting.side = side then posting.amount else 0 := by
  unfold LedgerAccountBalance.add
  cases hposted : posting.side <;> cases side <;> simp [totalOn]

/-- A posting adds its amount to its side of its key. -/
theorem postTo_totalOn (h : postTo a posting = .success b) (side : JournalSide) (key : LedgerKey) :
    b.totalOn side key = a.totalOn side key +
      if posting.side = side ∧ posting.key = key then posting.amount else 0 := by
  obtain ⟨-, -, rfl⟩ := postTo_eq_success.mp h
  rw [← setdefault_totalOn a posting]
  unfold MutableTotals.totalOn
  rw [Table.get_update fun r _ => (r.add_key posting).1]
  by_cases hkey : posting.key = key
  · subst hkey
    obtain ⟨x, hx⟩ := setdefault_has a posting
    rw [hx, Option.map_some, Option.map_some, Option.map_some, if_pos (Table.key_of_get hx)]
    simpa using x.add_totalOn posting side
  · rw [if_neg fun h => hkey h.2, add_zero]
    cases hx : Table.get (·.key) (MutableTotals.setdefault a posting) key with
    | none => rfl
    | some x =>
        have hother : ¬ x.key = posting.key := fun h => hkey (h.symm.trans (Table.key_of_get hx))
        rw [Option.map_some, if_neg hother]

end

/-! ## The replay -/

section

variable [Arithmetic] {a b : MutableTotals} {posting : JournalPosting}
  {postings : List JournalPosting}

theorem LedgerAccountBalance.add_exactly {x : LedgerAccountBalance}
    (h : IsKept (x.totalOn posting.side + posting.amount)) :
    x.add posting = exactly (x.add posting) := by
  unfold IsKept at h
  simp only [LedgerAccountBalance.add, exactly]
  cases hside : posting.side with
  | debit =>
      rw [hside] at h
      exact congrArg (fun total => { x with debitTotal := total }) h
  | credit =>
      rw [hside] at h
      exact congrArg (fun total => { x with creditTotal := total }) h

theorem postTo_exactly (h : postTo a posting = .success b) (ha : Table.Unique (·.key) a)
    (hkept : IsKept (a.totalOn posting.side posting.key + posting.amount)) :
    exactly (postTo a posting) = .success b := by
  obtain ⟨hknown, hquantum, rfl⟩ := postTo_eq_success.mp h
  refine (@postTo_eq_success ExactArithmetic.arithmetic _ _ _).mpr ⟨hknown, hquantum, ?_⟩
  unfold Table.update
  refine List.map_congr_left fun x hx => ?_
  by_cases hkey : x.key = posting.key
  · have hget : Table.get (·.key) (MutableTotals.setdefault a posting) posting.key = some x :=
      hkey ▸ Table.get_of_mem (setdefault_unique_iff.mpr ha) hx
    have htotal : a.totalOn posting.side posting.key = x.totalOn posting.side := by
      rw [← setdefault_totalOn a posting]
      unfold MutableTotals.totalOn
      rw [hget]
      rfl
    rw [htotal] at hkept
    rw [if_pos hkey, if_pos hkey]
    exact LedgerAccountBalance.add_exactly hkept
  · rw [if_neg hkey, if_neg hkey]

theorem TotalsKept.step (h : TotalsKept a (posting :: postings))
    (hposted : exactly (postTo a posting) = .success b) : TotalsKept b postings := by
  intro posted p hpre
  have hkept := h (posting :: posted) p (List.cons_prefix_cons.mpr ⟨rfl, hpre⟩)
  rw [List.cons_append, addedTo_cons, ← add_assoc, ← postTo_totalOn hposted] at hkept
  exact hkept

theorem TotalsKept.head (h : TotalsKept a (posting :: postings)) :
    IsKept (a.totalOn posting.side posting.key + posting.amount) := by
  have hkept := h [] posting (List.cons_prefix_cons.mpr ⟨rfl, List.nil_prefix⟩)
  rw [List.nil_append, addedTo_cons, if_pos ⟨rfl, rfl⟩, addedTo] at hkept
  simpa using hkept

theorem postings_exactly {rest : List JournalPosting} (h : postings.foldlM postTo a = .success b)
    (ha : Table.Unique (·.key) a) (hkept : TotalsKept a (postings ++ rest)) :
    exactly (postings.foldlM postTo a) = .success b ∧ TotalsKept b rest := by
  induction postings generalizing a with
  | nil =>
      cases h
      exact ⟨rfl, hkept⟩
  | cons posting postings ih =>
      rw [List.foldlM_cons] at h
      obtain ⟨middle, hfirst, hrest⟩ := Attempt.bind_eq_success.mp h
      have hposted := postTo_exactly hfirst ha hkept.head
      obtain ⟨hexact, hafter⟩ := ih hrest ((postTo_unique_iff hfirst).mpr ha) (hkept.step hposted)
      exact ⟨Attempt.bind_eq_success.mpr ⟨middle, hposted, hexact⟩, hafter⟩

/-- Sums of which no partial sum is rounded are zero exactly when they are computed to be. -/
theorem SumsKept.balanced_iff (h : SumsKept postings) :
    Balanced postings ↔ exactly (Balanced postings) := by
  have hsigned (commodity : Commodity) :
      (postings.filter (·.commodity = commodity)).map (·.signedAmount) =
        (postings.filter (·.commodity = commodity)).map fun p => exactly p.signedAmount := by
    refine List.map_congr_left fun q hq => ?_
    simp only [JournalPosting.signedAmount, exactly]
    by_cases hside : q.side = .debit
    · rw [if_pos hside, if_pos hside]
    · have hcredit : q.side = .credit := by
        cases hq' : q.side
        · exact absurd hq' hside
        · rfl
      have hamount : kept q.amount = q.amount := h.credits q (List.mem_filter.mp hq).1 hcredit
      rw [if_neg hside, if_neg hside, kept_neg, hamount, kept_exact]
  simp only [Balanced, exactly]
  refine forall₂_congr fun p _ => ?_
  rw [hsigned, Context.sum_eq_of_prefixes (h.sums p.commodity)]
  exact (Context.sum_exact _).symm ▸ Iff.rfl

theorem LedgerAccountBalance.validate_exactly {x : LedgerAccountBalance}
    (h : x.validate = .success ()) : exactly x.validate = .success () := by
  simp only [exactly, validate, Attempt.bind_eq_success, nonNegativeDecimal_eq_success,
    positiveDecimal_eq_success, raiseUnless_eq_success] at h ⊢
  obtain ⟨_, hquantum, _, hdebit, _, hcredit, ⟨hdebits, -⟩, hcredits, -⟩ := h
  exact ⟨(), hquantum, (), hdebit, (), hcredit, ⟨hdebits, takes_exact _ _⟩, hcredits,
    takes_exact _ _⟩

theorem LedgerProjection.accountBalance_eq_kept (p : LedgerProjection) (key : LedgerKey) :
    p.accountBalance key = kept (exactly (p.accountBalance key)) := by
  simp only [LedgerProjection.accountBalance, exactly]
  cases p.balances.find? (·.key = key) with
  | none => exact kept_zero.symm
  | some b => rfl

theorem hasNegativeAsset_exactly {p : LedgerProjection} :
    hasNegativeAsset p ↔ exactly (hasNegativeAsset p) := by
  simp only [exactly, hasNegativeAsset, LedgerAccountBalance.balance, ← not_le, kept_nonneg_iff]

variable [Hashing] {opening : AccountPortfolioSnapshot} {ts : List JournalTransaction}
  {state final : ReplayState} {p : LedgerProjection}

theorem projectionOf_exactly (h : projectionOf opening state = .success p) :
    exactly (projectionOf opening state) = .success p := by
  obtain ⟨htotals, hvalid, rfl⟩ := projectionOf_eq_success.mp h
  exact (@projectionOf_eq_success ExactArithmetic.arithmetic _ _ _ _).mpr
    ⟨fun b hb => LedgerAccountBalance.validate_exactly (htotals b hb), hvalid, rfl⟩

theorem foldlM_replayTransaction_exactly
    (h : ts.foldlM (replayTransaction opening) state = .success final)
    (hunique : Table.Unique (·.key) state.totals)
    (htotals : TotalsKept state.totals (ts.flatMap (·.postings)))
    (hsums : ∀ t ∈ ts, SumsKept t.postings) :
    exactly (ts.foldlM (replayTransaction opening) state) = .success final := by
  induction ts generalizing state with
  | nil => exact h
  | cons t ts ih =>
      rw [List.foldlM_cons] at h
      obtain ⟨next, hround, hrest⟩ := Attempt.bind_eq_success.mp h
      obtain ⟨⟨haccount, hsequence, hprevious, htime, hhash, hnonempty, hbalanced⟩, totals, hposted,
        rfl, hprojection, hassets⟩ := replayTransaction_eq_success.mp hround
      obtain ⟨hexact, hafter⟩ := postings_exactly hposted hunique htotals
      have hbalanced' := (hsums t (List.mem_cons_self ..)).balanced_iff.mp hbalanced
      have hlast := ih hrest ((postings_unique_iff hposted).mpr hunique) hafter
        fun u hu => hsums u (List.mem_cons_of_mem _ hu)
      have hround' : exactly (replayTransaction opening state t) = .success _ :=
        (@replayTransaction_eq_success ExactArithmetic.arithmetic _ _ _ _ _).mpr
          ⟨⟨haccount, hsequence, hprevious, htime, hhash, hnonempty, hbalanced'⟩, totals, hexact,
            rfl, projectionOf_exactly hprojection, fun hnegative =>
              hassets (hasNegativeAsset_exactly.mpr hnegative)⟩
      exact Attempt.bind_eq_success.mpr ⟨_, hround', hlast⟩

theorem foldlM_replayTransaction_unique
    (h : ts.foldlM (replayTransaction opening) state = .success final) :
    Table.Unique (·.key) final.totals ↔ Table.Unique (·.key) state.totals := by
  induction ts generalizing state with
  | nil =>
      cases h
      exact .rfl
  | cons t ts ih =>
      rw [List.foldlM_cons] at h
      obtain ⟨next, hround, hrest⟩ := Attempt.bind_eq_success.mp h
      obtain ⟨-, totals, hposted, rfl, -⟩ := replayTransaction_eq_success.mp hround
      exact (ih hrest).trans (postings_unique_iff hposted)

theorem ReplayKept.replayTransactions (hkept : ReplayKept opening ts)
    (h : replayTransactions opening ts = .success final)
    (hunique : Table.Unique (·.key) final.totals) :
    exactly (replayTransactions opening ts) = .success final :=
  foldlM_replayTransaction_exactly h ((foldlM_replayTransaction_unique h).mp hunique) hkept.totals
    hkept.sums

theorem ReplayKept.replayJournal (hkept : ReplayKept opening ts)
    (h : replayJournal opening ts = .success p) :
    exactly (replayJournal opening ts) = .success p := by
  obtain ⟨hgenesis, state, hstate, hprojection⟩ := replayJournal_eq_success.mp h
  have hunique : Table.Unique (·.key) state.totals := by
    have hkeys := replayJournal_keysUnique h
    obtain ⟨-, -, rfl⟩ := projectionOf_eq_success.mp hprojection
    exact (((sorted_perm LedgerAccountBalance.sortKey state.totals).map _).nodup_iff).mp hkeys
  exact (@replayJournal_eq_success ExactArithmetic.arithmetic _ _ _ _).mpr ⟨hgenesis, state,
    hkept.replayTransactions hstate hunique, projectionOf_exactly hprojection⟩

theorem ReplayKept.balance (hkept : ReplayKept opening ts)
    (h : StonksPaper.replayJournal opening ts = .success p) (key : LedgerKey) :
    exactly (p.accountBalance key) = balanceAfter opening ts key := by
  have hkeys := replayJournal_keysUnique h
  obtain ⟨-, state, hstate, hprojection⟩ :=
    (@replayJournal_eq_success ExactArithmetic.arithmetic _ _ _ _).mp (hkept.replayJournal h)
  obtain ⟨-, -, rfl⟩ :=
    (@projectionOf_eq_success ExactArithmetic.arithmetic _ _ _ _).mp hprojection
  exact (ledgerProjection_balance hkeys).trans (foldlM_replayTransaction_balance hstate key)

end

end StonksPaper
