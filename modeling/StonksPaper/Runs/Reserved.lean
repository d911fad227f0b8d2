import StonksPaper.Base.Totals
import StonksPaper.Runs.Posting

/-!
# What is held in reserve

A cash row and a position row say how much of them is reserved, and the reservations say what is
left of them. Nothing compares the two tables, but every change of the store moves both alike: what
is reserved of a balance is what its opening reserved and what the reservations on it still hold.
-/

namespace StonksPaper

open Chain
open scoped ExactArithmetic

/-! ## Totals -/

abbrev BalanceKey := AccountId × (Currency ⊕ Option UUID)

def PaperCashProjectionRow.balanceKey (r : PaperCashProjectionRow) : BalanceKey :=
  (r.accountId, .inl r.currency)

def PaperPositionProjectionRow.balanceKey (r : PaperPositionProjectionRow) : BalanceKey :=
  (r.accountId, .inr (some r.instrumentId))

/-- The balance that a reservation is taken from. -/
def AccountReservation.balanceKey (r : AccountReservation) : BalanceKey :=
  (r.accountId, match r.kind with
    | .cash => .inl r.commodity
    | .position => .inr r.instrumentId)

/-- What the rows of a balance say is reserved. -/
def reservedTotal (cash : List PaperCashProjectionRow) (positions : List PaperPositionProjectionRow)
    (k : BalanceKey) : Decimal :=
  Table.total (·.balanceKey) (·.reservedAmount) cash k +
    Table.total (·.balanceKey) (·.reservedQuantity) positions k

namespace Store

variable (s : Store)

def reservedAt (k : BalanceKey) : Decimal := reservedTotal s.cash s.positions k

def openedAt (k : BalanceKey) : Decimal :=
  reservedTotal (s.openings.flatMap fun o => o.cash.map (cashRow o))
    (s.openings.flatMap fun o => o.positions.map (positionRow o)) k

def heldAt (k : BalanceKey) : Decimal :=
  Table.total (·.balanceKey) (·.remainingAmount) s.reservations k

end Store

/-- Every balance has one row. -/
structure RowsUnique (s : Store) : Prop where
  cash : Table.Unique (·.balanceKey) s.cash
  positions : Table.Unique (·.balanceKey) s.positions

/-- What is reserved is what the reservations hold, beyond what was reserved at the opening. -/
structure ReservedKept (s : Store) : Prop where
  ids_unique : Table.Unique (·.reservationId) s.reservations
  exact : ∀ k, s.reservedAt k = s.openedAt k + s.heldAt k

theorem reservedTotal_append {cash cash' : List PaperCashProjectionRow}
    {positions positions' : List PaperPositionProjectionRow} {k : BalanceKey} :
    reservedTotal (cash ++ cash') (positions ++ positions') k =
      reservedTotal cash positions k + reservedTotal cash' positions' k := by
  unfold reservedTotal
  rw [Table.total_append, Table.total_append]
  abel

section

variable [Hashing] {s s' : Store} {r : AccountReservation} {k : BalanceKey}

theorem LedgerKept.rowsUnique (hk : LedgerKept s) : RowsUnique s := by
  constructor
  · refine Table.Unique.of_parts (fun r : PaperCashProjectionRow => r.accountId)
      (fun r => (Sum.inl r.currency : Currency ⊕ Option UUID)) fun a => ?_
    have hcurrencies : ((s.cash.filter (·.accountId = a)).map (·.currency)).Nodup := by
      cases hrows : s.cash.filter (·.accountId = a) with
      | nil => exact List.nodup_nil
      | cons first rest =>
          have hfirst : first ∈ s.cash.filter (·.accountId = a) := hrows ▸ List.mem_cons_self ..
          obtain ⟨hmem, hof⟩ := List.mem_filter.mp hfirst
          obtain ⟨row, hrow, howner⟩ := hk.cash_owned first hmem
          obtain ⟨opening, p, hrefines⟩ := hk.refines row hrow
          have hperm := hrefines.cash.map (·.1)
          rw [List.map_map] at hperm
          have hnodup := hperm.nodup_iff.mpr
            (cashQuantums_unique (replayJournal_keysUnique hrefines.replayed))
          rw [Store.cashOf, howner, of_decide_eq_true hof, hrows] at hnodup
          exact hnodup
    have hinl := hcurrencies.map (Sum.inl_injective (β := Option UUID))
    rwa [List.map_map] at hinl
  · refine Table.Unique.of_parts (fun r : PaperPositionProjectionRow => r.accountId)
      (fun r => (Sum.inr (some r.instrumentId) : Currency ⊕ Option UUID)) fun a => ?_
    have hinstruments : ((s.positions.filter (·.accountId = a)).map (·.instrumentId)).Nodup := by
      cases hrows : s.positions.filter (·.accountId = a) with
      | nil => exact List.nodup_nil
      | cons first rest =>
          have hfirst : first ∈ s.positions.filter (·.accountId = a) :=
            hrows ▸ List.mem_cons_self ..
          obtain ⟨hmem, hof⟩ := List.mem_filter.mp hfirst
          obtain ⟨row, hrow, howner⟩ := hk.positions_owned first hmem
          obtain ⟨opening, p, hrefines⟩ := hk.refines row hrow
          have hperm := hrefines.positions.map (·.1)
          rw [List.map_map] at hperm
          have hnodup := hperm.nodup_iff.mpr
            (positionQuantums_unique (replayJournal_keysUnique hrefines.replayed))
          rw [Store.positionsOf, howner, of_decide_eq_true hof, hrows] at hnodup
          exact hnodup
    have hinr := hinstruments.map
      ((Sum.inr_injective (α := Currency)).comp (Option.some_injective UUID))
    rwa [List.map_map] at hinr

/-! ## Taking and giving back -/

omit [Hashing] in
theorem balanceKey_of_cash {row : PaperCashProjectionRow} (hkind : r.kind = .cash)
    (haccount : row.accountId = r.accountId) (hcurrency : row.currency = r.commodity) :
    row.balanceKey = r.balanceKey := by
  unfold PaperCashProjectionRow.balanceKey AccountReservation.balanceKey
  rw [hkind, haccount, hcurrency]

omit [Hashing] in
theorem balanceKey_of_position {row : PaperPositionProjectionRow} (hkind : r.kind = .position)
    (haccount : row.accountId = r.accountId)
    (hinstrument : some row.instrumentId = r.instrumentId) : row.balanceKey = r.balanceKey := by
  unfold PaperPositionProjectionRow.balanceKey AccountReservation.balanceKey
  rw [hkind, haccount, hinstrument]

omit [Hashing] in
/-- A reservation moves what is reserved of its balance by its amount. -/
theorem reservedTotal_hold (hunique : RowsUnique s) (h : Available s r) :
    reservedTotal (r.holdCash s.cash) (r.holdPosition s.positions) k =
      s.reservedAt k + if r.balanceKey = k then r.amount else 0 := by
  unfold Available at h
  unfold Store.reservedAt reservedTotal AccountReservation.holdCash AccountReservation.holdPosition
  cases hkind : r.kind with
  | cash =>
      simp only [hkind] at h ⊢
      obtain ⟨row, hrow, hreservable⟩ := h
      have hfound : ∀ x, ReservableCash r x → x.balanceKey = r.balanceKey :=
        fun x hx => balanceKey_of_cash hkind hx.1 hx.2.1
      rw [add_right_comm]
      exact congrArg (· + _) (Table.total_update hunique.cash hrow hreservable hfound
        (fun _ _ => rfl) fun _ _ => rfl)
  | position =>
      simp only [hkind] at h ⊢
      obtain ⟨row, hrow, hreservable⟩ := h
      have hfound : ∀ x, ReservablePosition r x → x.balanceKey = r.balanceKey :=
        fun x hx => balanceKey_of_position hkind hx.1 hx.2.1
      rw [add_assoc]
      exact congrArg (_ + ·) (Table.total_update hunique.positions hrow hreservable hfound
        (fun _ _ => rfl) fun _ _ => rfl)

omit [Hashing] in
/-- What is given back is not reserved any more. -/
theorem reservedTotal_giveBack {amount : Decimal} (hunique : RowsUnique s)
    (h : Releasable s r amount) :
    reservedTotal (r.giveBackCash amount s.cash) (r.giveBackPosition amount s.positions) k =
      s.reservedAt k + if r.balanceKey = k then -amount else 0 := by
  unfold Releasable at h
  unfold Store.reservedAt reservedTotal AccountReservation.giveBackCash
    AccountReservation.giveBackPosition
  cases hkind : r.kind with
  | cash =>
      simp only [hkind] at h ⊢
      obtain ⟨row, hrow, hreleasable⟩ := h
      have hfound : ∀ x, ReleasableCash r amount x → x.balanceKey = r.balanceKey :=
        fun x hx => balanceKey_of_cash hkind hx.1 hx.2.1
      rw [add_right_comm]
      exact congrArg (· + _) (Table.total_update hunique.cash hrow hreleasable hfound
        (fun _ _ => rfl) fun _ _ => sub_eq_add_neg _ _)
  | position =>
      simp only [hkind] at h ⊢
      obtain ⟨row, hrow, hreleasable⟩ := h
      have hfound : ∀ x, ReleasablePosition r amount x → x.balanceKey = r.balanceKey :=
        fun x hx => balanceKey_of_position hkind hx.1 hx.2.1
      rw [add_assoc]
      exact congrArg (_ + ·) (Table.total_update hunique.positions hrow hreleasable hfound
        (fun _ _ => rfl) fun _ _ => sub_eq_add_neg _ _)

omit [Hashing] in
theorem RowsUnique.held {other : AccountReservation} (h : RowsUnique s) :
    RowsUnique { s with
      cash := other.holdCash s.cash, positions := other.holdPosition s.positions } := by
  unfold AccountReservation.holdCash AccountReservation.holdPosition
  cases other.kind with
  | cash => exact ⟨h.cash.update fun _ _ => rfl, h.positions⟩
  | position => exact ⟨h.cash, h.positions.update fun _ _ => rfl⟩

omit [Hashing] in
theorem reservedAt_reserved {pairs : List ReservationOrderPair} (hunique : RowsUnique s)
    (h : pairs.foldlM (fun s pair => s.reserveProjection pair.1.reservation) s = .success s') :
    s'.reservedAt k = s.reservedAt k +
      Table.total (·.balanceKey) (·.amount) (pairs.map (·.1.reservation)) k := by
  refine Attempt.foldlM_induct
    (P := fun (pairs : List ReservationOrderPair) s s' => RowsUnique s →
      s'.reservedAt k = s.reservedAt k +
        Table.total (·.balanceKey) (·.amount) (pairs.map (·.1.reservation)) k)
    (fun s _ => (add_zero _).symm) (fun pair pairs s t u hfirst hrest hunique => ?_) h hunique
  obtain ⟨havailable, rfl⟩ := reserveProjection_eq_success hfirst
  rw [hrest hunique.held, List.map_cons, Table.total_cons, ← add_assoc]
  exact congrArg (· + _) (reservedTotal_hold hunique havailable)

/-! ## The reservations -/

omit [Hashing] in
/-- Each reservation of a batch is stored, and open. -/
theorem reservation_of_inserted {pairs : List ReservationOrderPair} {pair : ReservationOrderPair}
    (h : pairs.foldlM Store.insertPair s = .success s') (hpair : pair ∈ pairs) :
    s'.reservation pair.1.reservation.reservationId = some pair.1.reservation ∧
      pair.1.reservation.state = .open_ := by
  induction pairs generalizing s with
  | nil => cases hpair
  | cons first rest ih =>
      rw [List.foldlM_cons] at h
      obtain ⟨s₁, hfirst, hrest⟩ := Attempt.bind_eq_success.mp h
      rcases List.mem_cons.mp hpair with rfl | hpair
      · obtain ⟨hadmitted, rfl⟩ := insertPair_eq_success hfirst
        refine ⟨?_, hadmitted.opened⟩
        have hread : Table.get (·.reservationId) (s.withPair pair).reservations
            pair.1.reservation.reservationId = some pair.1.reservation :=
          Table.get_concat_self hadmitted.reservation_fresh
        rw [Store.reservation, insertPair_all hrest, foldl_withPair]
        refine Table.get_append.trans ?_
        rw [hread]
        rfl
      · exact ih hrest hpair

omit [Hashing] in
/-- A mutation of a stored reservation moves what is held by what it gives up. -/
theorem heldAt_moved {final : AccountReservation} (hk : ReservedKept s)
    (hstored : s.reservation r.reservationId = some r) :
    Table.total (·.balanceKey) (·.remainingAmount)
        (Table.update (·.reservationId = r.reservationId) (fun _ =>
          r.moved final) s.reservations) k =
      s.heldAt k + if r.balanceKey = k then final.remainingAmount - r.remainingAmount else 0 := by
  rw [Store.heldAt, Table.total_eq_sum, Table.total_eq_sum,
    Table.sum_map_update (f := fun _ => r.moved final) hk.ids_unique hstored]
  have hkey : (r.moved final).balanceKey = r.balanceKey := rfl
  rw [hkey]
  by_cases hof : r.balanceKey = k
  · simp only [if_pos hof]
    rfl
  · simp only [if_neg hof, sub_zero]

omit [Hashing] in
/-- What an execution or a cancellation does to one reservation and its balance. -/
theorem ReservedKept.gaveBack {final : AccountReservation} {mutations : List ReservationMutation}
    (hk : ReservedKept s) (hunique : RowsUnique s)
    (hstored : s.reservation r.reservationId = some r)
    (hfinal : mutations = [] → final.remainingAmount = r.remainingAmount)
    (hreleasable : r.remainingAmount - final.remainingAmount = 0 ∨
      Releasable s r (r.remainingAmount - final.remainingAmount)) :
    ReservedKept ((s.mutated r final mutations).givenBack r
      (r.remainingAmount - final.remainingAmount)) := by
  have hreserved (k : BalanceKey) : ((s.mutated r final mutations).givenBack r
      (r.remainingAmount - final.remainingAmount)).reservedAt k =
        s.reservedAt k +
          if r.balanceKey = k then final.remainingAmount - r.remainingAmount else 0 := by
    rcases hreleasable with hnone | hsome
    · have hsame : final.remainingAmount - r.remainingAmount = 0 := by linarith
      rw [hnone, Store.givenBack_zero, hsame, ite_self, add_zero]
      rfl
    · rw [← neg_sub r.remainingAmount]
      exact reservedTotal_giveBack ⟨hunique.cash, hunique.positions⟩ hsome
  have hheld (k : BalanceKey) : ((s.mutated r final mutations).givenBack r
      (r.remainingAmount - final.remainingAmount)).heldAt k =
        s.heldAt k + if r.balanceKey = k then final.remainingAmount - r.remainingAmount else 0 := by
    by_cases hnil : mutations = []
    · rw [hfinal hnil, sub_self, ite_self, add_zero]
      simp [Store.heldAt, Store.givenBack, Store.mutated, hnil]
    · refine Eq.trans ?_ (heldAt_moved hk hstored)
      simp [Store.heldAt, Store.givenBack, Store.mutated, hnil]
  constructor
  · have hmoved : Table.Unique (·.reservationId) (s.mutated r final mutations).reservations := by
      unfold Store.mutated
      by_cases hnil : mutations = []
      · simpa only [hnil, if_true] using hk.ids_unique
      · simp only [if_neg hnil]
        exact hk.ids_unique.update fun x hx => hx.symm
    exact hmoved
  · intro k
    rw [hreserved, hheld, hk.exact]
    exact add_assoc _ _ _

/-! ## Every change -/

omit [Hashing] in
theorem reservedKept_migrated {at_ : UTCDateTime} : ReservedKept (Store.migrated at_) := by
  constructor
  · exact Table.unique_nil
  · intro k
    simp [Store.reservedAt, Store.openedAt, Store.heldAt, reservedTotal, Store.migrated]

omit [Hashing] in
theorem ReservedKept.of_eq (hk : ReservedKept s) (hreservations : s'.reservations = s.reservations)
    (hopenings : s'.openings = s.openings) (hreserved : ∀ k, s'.reservedAt k = s.reservedAt k) :
    ReservedKept s' := by
  constructor
  · rw [hreservations]
    exact hk.ids_unique
  · intro k
    rw [hreserved, Store.openedAt, hopenings, Store.heldAt, hreservations]
    exact hk.exact k

omit [Hashing] in
theorem ReservedKept.registered {snapshot : AccountPortfolioSnapshot} {baseCurrency : Currency}
    {now : UTCDateTime} (hk : ReservedKept s) :
    ReservedKept (s.registered snapshot baseCurrency now) := by
  constructor
  · exact hk.ids_unique
  · intro k
    have hopened : (s.registered snapshot baseCurrency now).openedAt k = s.openedAt k +
        reservedTotal (snapshot.cash.map (cashRow snapshot))
          (snapshot.positions.map (positionRow snapshot)) k := by
      unfold Store.openedAt Store.registered
      rw [List.flatMap_append, List.flatMap_append, reservedTotal_append]
      simp
    have hreserved : (s.registered snapshot baseCurrency now).reservedAt k = s.reservedAt k +
        reservedTotal (snapshot.cash.map (cashRow snapshot))
          (snapshot.positions.map (positionRow snapshot)) k := reservedTotal_append
    rw [hreserved, hopened, hk.exact]
    have hheld : (s.registered snapshot baseCurrency now).heldAt k = s.heldAt k := rfl
    rw [hheld]
    abel

theorem ReservedKept.batch {ordered : List ReservationOrderPair} {now : UTCDateTime}
    {row : PaperAccountRow} {event : PaperAccountEvent} (hk : ReservedKept s)
    (hunique : RowsUnique s) (h : BatchCreated s ordered now row event s') : ReservedKept s' := by
  have hsequenced : RowsUnique (s.sequencedFor row now) :=
    ⟨hunique.cash.update fun _ _ => rfl, hunique.positions.update fun _ _ => rfl⟩
  have hwhole : ∀ pair ∈ ordered,
      pair.1.reservation.remainingAmount = pair.1.reservation.amount :=
    Attempt.forall_of_foldlM (fun _ _ _ hfirst => (insertPair_eq_success hfirst).1.whole) h.inserted
  constructor
  · refine Attempt.foldlM_invariant
      (I := fun s : Store => Table.Unique (·.reservationId) s.reservations)
      (fun pair _ a b hfirst hids => ?_) h.inserted hk.ids_unique
    obtain ⟨hadmitted, rfl⟩ := insertPair_eq_success hfirst
    exact hids.concat hadmitted.reservation_fresh
  · intro k
    have hreserved : s'.reservedAt k = s.reservedAt k +
        Table.total (·.balanceKey) (·.amount) (ordered.map (·.1.reservation)) k := by
      have hheld := reservedAt_reserved (k := k) hsequenced h.reserved
      have hsame : (s.sequencedFor row now).reservedAt k = s.reservedAt k :=
        congrArg₂ (· + ·) (Table.total_update_of_kept (fun _ _ => rfl) fun _ _ => rfl)
          (Table.total_update_of_kept (fun _ _ => rfl) fun _ _ => rfl)
      rw [hsame] at hheld
      rw [h.state]
      exact hheld
    have hheld : s'.heldAt k = s.heldAt k +
        Table.total (·.balanceKey) (·.amount) (ordered.map (·.1.reservation)) k := by
      have hamounts : Table.total (fun r : AccountReservation => r.balanceKey) (·.remainingAmount)
          (ordered.map (·.1.reservation)) k =
            Table.total (·.balanceKey) (·.amount) (ordered.map (·.1.reservation)) k := by
        refine Table.total_congr fun r hr => ?_
        obtain ⟨pair, hpair, rfl⟩ := List.mem_map.mp hr
        exact hwhole pair hpair
      rw [h.state, ← hamounts]
      exact Table.total_append _ _
    have hopened : s'.openedAt k = s.openedAt k := by
      rw [h.state]
      rfl
    rw [hreserved, hheld, hopened, hk.exact]
    abel

theorem reservedAt_posted {transaction : JournalTransaction} {row : PaperAccountRow}
    {before after : LedgerProjection} {event : PaperAccountEvent} {now : UTCDateTime}
    (h : JournalPosted s transaction row before after event now s') :
    s'.reservedAt k = s.reservedAt k := by
  rw [h.state]
  refine congrArg₂ (· + ·) ?_ ?_
  · refine (Table.total_append _ _).trans ?_
    rw [Table.total_map, Table.total_eq_zero fun _ _ _ => rfl, add_zero]
    exact Table.total_update_of_kept (fun _ _ => rfl) fun _ _ => rfl
  · refine (Table.total_append _ _).trans ?_
    rw [Table.total_map, Table.total_eq_zero fun _ _ _ => rfl, add_zero]
    exact Table.total_update_of_kept (fun _ _ => rfl) fun _ _ => rfl

omit [Hashing] in
/-- What an outcome takes off a reservation is on its row. -/
theorem applyReservation_releasable {before : AccountReservation} {outcome : PaperExecutionOutcome}
    (h : s.applyReservation before outcome = .success s') :
    before.remainingAmount - outcome.finalReservation.remainingAmount = 0 ∨
      Releasable s before
        (before.remainingAmount - outcome.finalReservation.remainingAmount) := by
  unfold Store.applyReservation at h
  split at h
  · simp only [Attempt.bind_eq_success, failUnless_eq_success] at h
    obtain ⟨_, hfinal, -⟩ := h
    exact .inl (by rw [hfinal, sub_self])
  · simp only [Attempt.bind_eq_success, failUnless_eq_success] at h
    obtain ⟨⟨s₁, row, previous⟩, hloop, _, hfinal, _, -, h⟩ := h
    obtain ⟨hstate, -⟩ := applyMutation_all ⟨before, rfl⟩ hloop
    have hstate : s₁ = s.mutated before previous outcome.reservationMutations := hstate
    rw [← hfinal]
    unfold Store.releaseProjection at h
    split at h
    · rename_i hzero
      exact .inl hzero
    · have hreleasable := (releaseReserved_eq_success h).1
      rw [hstate] at hreleasable
      exact .inr hreleasable

theorem pendingMutation_remaining {at_ : UTCDateTime} {m : ReservationMutation} (hr : r.Valid)
    (h : pendingMutation r at_ = .success m) : m.reservation.remainingAmount = 0 := by
  unfold pendingMutation at h
  split at h
  · obtain ⟨-, -, rfl⟩ := (AccountReservation.expire_eq_success hr).mp h
    rfl
  · obtain ⟨-, -, rfl⟩ := (AccountReservation.release_eq_success hr).mp h
    rfl

theorem ReservedKept.executed {command : ExecutionCommand} {outcome : PaperExecutionOutcome}
    {held : AccountReservation} (hk : ReservedKept s) (hunique : RowsUnique s)
    (h : ExecutionPersisted s command outcome held s') : ReservedKept s' := by
  have hid : held.reservationId = command.intent.reservationId := Table.key_of_get h.reserved
  have hgave := hk.gaveBack hunique (hid.symm ▸ h.reserved)
    (fun hnil : outcome.reservationMutations = [] => by rw [h.final hnil])
    (applyReservation_releasable h.mutated)
  rw [h.state]
  exact ⟨hgave.ids_unique, hgave.exact⟩

theorem ReservedKept.cancelled {intent : OrderIntent} {at_ : UTCDateTime}
    {before : AccountReservation} {changed : ReservationMutation} {created : OrderEvent}
    (hk : ReservedKept s) (hunique : RowsUnique s)
    (h : OrderCancelled s intent at_ before changed created s') : ReservedKept s' := by
  have hid : before.reservationId = intent.reservationId := Table.key_of_get h.reserved
  have hzero : before.remainingAmount - changed.reservation.remainingAmount =
      before.remainingAmount := by
    rw [pendingMutation_remaining (AccountReservation.validate_iff.mp h.before_valid) h.released,
      sub_zero]
  have hfinal : [changed] = [] →
      changed.reservation.remainingAmount = before.remainingAmount := fun hnil => by cases hnil
  have hgave := hk.gaveBack hunique (hid.symm ▸ h.reserved) hfinal
    (.inr (hzero.symm ▸ h.releasable))
  rw [hzero] at hgave
  rw [h.state]
  exact ⟨hgave.ids_unique, hgave.exact⟩

theorem ReservedKept.effect {O : Permission} (h : Effect O s s') (hk : ReservedKept s)
    (hunique : RowsUnique s) : ReservedKept s' := by
  cases h with
  | registered => exact hk.registered
  | targeted => exact hk.of_eq rfl rfl fun _ => rfl
  | decided => exact hk.of_eq rfl rfl fun _ => rfl
  | batch created => exact hk.batch hunique created
  | executed _ persisted => exact hk.executed hunique persisted
  | posted _ posted =>
      refine hk.of_eq ?_ ?_ fun k => reservedAt_posted posted
      · rw [posted.state]
        rfl
      · rw [posted.state]
        rfl
  | cancelled _ cancelled => exact hk.cancelled hunique cancelled
  | operated operated =>
      rw [operated.same]
      exact hk.of_eq rfl rfl fun _ => rfl

/-! ## Every run -/

theorem reservedKept_reached (at_ : UTCDateTime) (ops : List Timed) :
    LedgerKept (World.reached at_ ops).store ∧ ReservedKept (World.reached at_ ops).store :=
  World.invariant_reached (I := fun s => LedgerKept s ∧ ReservedKept s) at_ ops
    ⟨ledgerKept_migrated, reservedKept_migrated⟩
    fun _ _ h hk => ⟨hk.1.effect h, hk.2.effect h hk.1.rowsUnique⟩

omit [Hashing] in
/-- What is reserved of each row. -/
theorem ReservedKept.rows_exact (hk : ReservedKept s) (hunique : RowsUnique s) :
    (∀ row ∈ s.cash,
      row.reservedAmount = s.openedAt row.balanceKey + s.heldAt row.balanceKey) ∧
    ∀ row ∈ s.positions,
      row.reservedQuantity = s.openedAt row.balanceKey + s.heldAt row.balanceKey := by
  constructor
  · intro row hrow
    have hothers : Table.total (fun r : PaperPositionProjectionRow => r.balanceKey)
        (·.reservedQuantity) s.positions row.balanceKey = 0 :=
      Table.total_fresh fun r _ hkey => by cases (Prod.ext_iff.mp hkey).2
    rw [← hk.exact, Store.reservedAt, reservedTotal, hothers, add_zero]
    exact (Table.total_of_mem hunique.cash hrow).symm
  · intro row hrow
    have hothers : Table.total (fun r : PaperCashProjectionRow => r.balanceKey)
        (·.reservedAmount) s.cash row.balanceKey = 0 :=
      Table.total_fresh fun r _ hkey => by cases (Prod.ext_iff.mp hkey).2
    rw [← hk.exact, Store.reservedAt, reservedTotal, hothers, zero_add]
    exact (Table.total_of_mem hunique.positions hrow).symm

/-- In every reachable store, what each cash row and each position row reserves is what its opening
snapshot reserved and what the reservations on that balance still hold. -/
theorem reserved_exact (at_ : UTCDateTime) (ops : List Timed) :
    (∀ row ∈ (World.reached at_ ops).store.cash,
      row.reservedAmount = (World.reached at_ ops).store.openedAt row.balanceKey +
        (World.reached at_ ops).store.heldAt row.balanceKey) ∧
    ∀ row ∈ (World.reached at_ ops).store.positions,
      row.reservedQuantity = (World.reached at_ ops).store.openedAt row.balanceKey +
        (World.reached at_ ops).store.heldAt row.balanceKey := by
  obtain ⟨hledger, hk⟩ := reservedKept_reached at_ ops
  exact hk.rows_exact hledger.rowsUnique

end

end StonksPaper
