import StonksPaper.Runs.Posting

/-!
# What a posting does to other positions

A posted transaction writes every position row of its account. The quantity of a row whose
instrument was not traded comes back as it was, but its sellable quantity is overwritten with the
quantity.
-/

namespace StonksPaper

open Chain
open scoped ExactArithmetic

/-! ## Amounts -/

/-- Quantity, sellable quantity and reserved quantity of a position. -/
def Store.positionAmounts (s : Store) (accountId : AccountId) (instrumentId : UUID) :
    Option (Decimal × Decimal × Decimal) :=
  (Table.get (fun r => (r.accountId, r.instrumentId)) s.positions (accountId, instrumentId)).map
    fun r => (r.quantity, r.sellableQuantity, r.reservedQuantity)

/-- The reserved amount of a cash balance. -/
def Store.cashReserved (s : Store) (accountId : AccountId) (currency : Currency) :
    Option Decimal :=
  (Table.get (fun r => (r.accountId, r.currency)) s.cash (accountId, currency)).map
    (·.reservedAmount)

/-- Every position but one, and what is reserved of every cash balance, is as it was. -/
structure OthersKept (s s' : Store) (accountId : AccountId) (instrumentId : UUID) : Prop where
  positions : ∀ account other, (account, other) ≠ (accountId, instrumentId) →
    s'.positionAmounts account other = s.positionAmounts account other
  cash : ∀ account currency, ∀ reserved ∈ s.cashReserved account currency,
    reserved ∈ s'.cashReserved account currency

def OthersSettled (s : Store) (accountId : AccountId) (instrumentId : UUID) : Prop :=
  ∀ r ∈ s.positionsOf accountId, r.instrumentId ≠ instrumentId → r.sellableQuantity = r.quantity

instance (s : Store) (accountId : AccountId) (instrumentId : UUID) :
    Decidable (OthersSettled s accountId instrumentId) :=
  inferInstanceAs (Decidable (∀ _ ∈ _, _))

theorem OthersKept.refl (s : Store) (accountId : AccountId) (instrumentId : UUID) :
    OthersKept s s accountId instrumentId :=
  ⟨fun _ _ _ => rfl, fun _ _ _ h => h⟩

section

variable [Hashing] {s s' : Store} {transaction : JournalTransaction} {sequence : ℕ}
  {hash : Option Sha256} {accountSequence : ℕ} {row : PaperAccountRow}
  {opening : AccountPortfolioSnapshot} {before after : LedgerProjection} {fill : Fill}
  {event : PaperAccountEvent} {now : UTCDateTime}

/-! ## The rows of a posting -/

theorem AppendChecked.position_other
    (hchecked : AppendChecked s transaction sequence hash accountSequence row before after fill)
    {other : UUID} (hother : other ≠ fill.instrumentId) :
    after.position other = before.position other := by
  obtain ⟨opening, -, hbefore, hafter⟩ := hchecked.replayed
  obtain ⟨values, hbuilt⟩ := buildFillJournal_built hchecked.built
  have hbalance := replayJournal_balance hbefore hafter (.inventoryUnits other, .units other)
  have hmoved : transaction.moved (· = (.inventoryUnits other, .units other)) = 0 :=
    moved_eq_zero fun p hp => decide_eq_false (hbuilt.units hother p hp)
  rw [hmoved, add_zero] at hbalance
  exact hbalance

/-- A posting adds no row but that of the traded instrument. -/
theorem missing_traded
    (hchecked : AppendChecked s transaction sequence hash accountSequence row before after fill)
    (hrefines : Refines s row opening before) {item : UUID × Decimal}
    (hitem : item ∈ missingPositions s.positions row.accountId after) :
    item.1 = fill.instrumentId := by
  by_contra hother
  obtain ⟨hafterItem, hnew⟩ := List.mem_filter.mp hitem
  obtain ⟨b, hb, hkey, -⟩ := mem_positionQuantums.mp hafterItem
  obtain ⟨opening', -, hbefore, hafter⟩ := hchecked.replayed
  obtain ⟨values, hbuilt⟩ := buildFillJournal_built hchecked.built
  rcases replayJournal_keys hbefore hafter b hb with ⟨a, ha, hakey⟩ | ⟨p, hp, hpkey⟩
  · have hold : (item.1, a.quantum) ∈ positionQuantums before :=
      mem_positionQuantums.mpr ⟨a, ha, hakey.trans hkey, rfl⟩
    obtain ⟨r, hr, hrkey⟩ := List.mem_map.mp (hrefines.positions.mem_iff.mpr hold)
    have hknown : item.1 ∈ (s.positionsOf row.accountId).map (·.instrumentId) :=
      List.mem_map.mpr ⟨r, hr, congrArg Prod.fst hrkey⟩
    simp only [decide_eq_true_eq] at hnew
    exact hnew hknown
  · exact hbuilt.units hother p hp (hpkey.trans hkey)

/-- The amounts of another position after a posting. -/
theorem positionAmounts_posted
    (hchecked : AppendChecked s transaction sequence hash accountSequence row before after fill)
    (hposted : JournalPosted s transaction row before after event now s')
    (hrefines : Refines s row opening before) {account : AccountId} {other : UUID}
    (hother : (account, other) ≠ (row.accountId, fill.instrumentId)) :
    s'.positionAmounts account other =
      if account = row.accountId then
        (s.positionAmounts account other).map fun amounts => (amounts.1, amounts.1, amounts.2.2)
      else s.positionAmounts account other := by
  have hnew : Table.get (fun r : PaperPositionProjectionRow => (r.accountId, r.instrumentId))
      ((missingPositions s.positions row.accountId after).map fun item =>
        (⟨row.accountId, item.1, after.position item.1, after.position item.1, 0, item.2,
          row.aggregateSequence + 1⟩ : PaperPositionProjectionRow)) (account, other) = none := by
    refine Table.get_eq_none.mpr fun r hr hkey => hother ?_
    obtain ⟨item, hitem, rfl⟩ := List.mem_map.mp hr
    rw [← hkey, ← missing_traded hchecked hrefines hitem]
  have hrows : s'.positions =
      settledPositionRows s.positions row.accountId after (row.aggregateSequence + 1) := by
    rw [hposted.state]
    rfl
  have hsettle : ∀ r : PaperPositionProjectionRow, r.accountId = row.accountId →
      ((settledPosition after (row.aggregateSequence + 1) r).accountId,
        (settledPosition after (row.aggregateSequence + 1) r).instrumentId) =
          (r.accountId, r.instrumentId) := fun _ _ => rfl
  unfold Store.positionAmounts
  rw [hrows, settledPositionRows, Table.get_append, hnew, Option.or_none,
    Table.get_update hsettle]
  cases hget : Table.get (fun r : PaperPositionProjectionRow => (r.accountId, r.instrumentId))
      s.positions (account, other) with
  | none =>
      split <;> rfl
  | some r =>
      have hkey := Prod.ext_iff.mp (Table.key_of_get hget)
      have haccount : r.accountId = account := hkey.1
      have hinstrument : r.instrumentId = other := hkey.2
      by_cases hof : account = row.accountId
      · have hne : other ≠ fill.instrumentId := by
          intro heq
          exact hother (Prod.ext hof heq)
        have hmem : r ∈ s.positionsOf row.accountId :=
          List.mem_filter.mpr ⟨Table.mem_of_get hget, decide_eq_true (haccount.trans hof)⟩
        have hquantity : after.position other = r.quantity := by
          rw [hchecked.position_other hne, hrefines.positions_settled r hmem, hinstrument]
        rw [if_pos hof, Option.map_some, if_pos (haccount.trans hof), Option.map_some,
          Option.map_some, Option.map_some]
        simp only [settledPosition, hinstrument, hquantity]
      · have hout : ¬ r.accountId = row.accountId := fun h => hof (haccount.symm.trans h)
        rw [if_neg hof, Option.map_some, if_neg hout]

/-- What is reserved of a cash balance is not touched by a posting. -/
theorem cashReserved_posted (hposted : JournalPosted s transaction row before after event now s')
    {account : AccountId} {currency : Currency} {reserved : Decimal}
    (h : reserved ∈ s.cashReserved account currency) :
    reserved ∈ s'.cashReserved account currency := by
  have hrows : s'.cash =
      settledCashRows s.cash row.accountId after (row.aggregateSequence + 1) := by
    rw [hposted.state]
    rfl
  have hsettle : ∀ r : PaperCashProjectionRow, r.accountId = row.accountId →
      ((settledCash after (row.aggregateSequence + 1) r).accountId,
        (settledCash after (row.aggregateSequence + 1) r).currency) =
          (r.accountId, r.currency) := fun _ _ => rfl
  obtain ⟨r, hget, rfl⟩ := Option.map_eq_some_iff.mp h
  refine Option.map_eq_some_iff.mpr
    ⟨if r.accountId = row.accountId then settledCash after (row.aggregateSequence + 1) r else r,
      ?_, ?_⟩
  · rw [hrows, settledCashRows, Table.get_append, Table.get_update hsettle, hget]
    rfl
  · split <;> rfl

/-- The row that a lookup by account and instrument finds is the account's only one. -/
theorem Refines.get_position (hrefines : Refines s row opening before)
    (hunique : before.KeysUnique) {r : PaperPositionProjectionRow}
    (hr : r ∈ s.positionsOf row.accountId) :
    Table.get (fun r => (r.accountId, r.instrumentId)) s.positions
      (row.accountId, r.instrumentId) = some r := by
  obtain ⟨hmem, hof⟩ := List.mem_filter.mp hr
  have hid : r.accountId = row.accountId := of_decide_eq_true hof
  have hrows : Table.Unique (·.instrumentId) (s.positionsOf row.accountId) := by
    have hperm := hrefines.positions.map (·.1)
    rw [List.map_map] at hperm
    exact hperm.nodup_iff.mpr (positionQuantums_unique hunique)
  cases hget : Table.get (fun r : PaperPositionProjectionRow => (r.accountId, r.instrumentId))
      s.positions (row.accountId, r.instrumentId) with
  | none => exact absurd (by rw [hid]) (Table.get_eq_none.mp hget r hmem)
  | some r' =>
      have hkey := Prod.ext_iff.mp (Table.key_of_get hget)
      have hmem' : r' ∈ s.positionsOf row.accountId :=
        List.mem_filter.mpr ⟨Table.mem_of_get hget, decide_eq_true hkey.1⟩
      rw [hrows.eq hmem' hr hkey.2]

/-- A posting keeps the other positions exactly when they are settled. -/
theorem othersKept_posted_iff
    (hchecked : AppendChecked s transaction sequence hash accountSequence row before after fill)
    (hposted : JournalPosted s transaction row before after event now s')
    (hrefines : Refines s row opening before) :
    OthersKept s s' row.accountId fill.instrumentId ↔
      OthersSettled s row.accountId fill.instrumentId := by
  have hunique : before.KeysUnique := by
    obtain ⟨opening, -, hbefore, -⟩ := hchecked.replayed
    exact replayJournal_keysUnique hbefore
  constructor
  · intro hkept r hr hother
    have hkey : (row.accountId, r.instrumentId) ≠ (row.accountId, fill.instrumentId) :=
      fun h => hother (Prod.ext_iff.mp h).2
    have hsame := hkept.positions row.accountId r.instrumentId hkey
    rw [positionAmounts_posted hchecked hposted hrefines hkey, if_pos rfl] at hsame
    unfold Store.positionAmounts at hsame
    rw [hrefines.get_position hunique hr, Option.map_some, Option.map_some] at hsame
    have hamounts := Option.some.inj hsame
    exact (congrArg (fun amounts => amounts.2.1) hamounts).symm
  · intro hsettled
    refine ⟨fun account other hother => ?_, fun account currency reserved h =>
      cashReserved_posted hposted h⟩
    rw [positionAmounts_posted hchecked hposted hrefines hother]
    by_cases hof : account = row.accountId
    · rw [if_pos hof]
      subst hof
      have hne : other ≠ fill.instrumentId := fun heq => hother (by rw [heq])
      unfold Store.positionAmounts
      cases hget : Table.get
          (fun r : PaperPositionProjectionRow => (r.accountId, r.instrumentId)) s.positions
          (row.accountId, other) with
      | none => rfl
      | some r =>
          have hkey := Prod.ext_iff.mp (Table.key_of_get hget)
          have hmem : r ∈ s.positionsOf row.accountId :=
            List.mem_filter.mpr ⟨Table.mem_of_get hget, decide_eq_true hkey.1⟩
          have hinstrument : r.instrumentId = other := hkey.2
          have hsell := hsettled r hmem (hinstrument ▸ hne)
          rw [Option.map_some, Option.map_some]
          simp only [hsell]
    · rw [if_neg hof]

/-- In every run, `append` leaves the other positions and the reserved cash of its account as they
were exactly when it finds the transaction stored or all of the other positions are sellable. -/
theorem append_keeps_others_iff (at_ : UTCDateTime) (ops : List Timed)
    (transaction t : JournalTransaction) (expectedSequence : ℕ) (expectedHash : Option Sha256)
    (expectedAccountSequence : ℕ) (now : UTCDateTime) (fill : Fill) (s' : Store)
    (h : (World.reached at_ ops).store.append transaction expectedSequence expectedHash
      expectedAccountSequence now = .success (t, s'))
    (hfill : Table.get (·.fillId) (World.reached at_ ops).store.fills transaction.sourceFillId =
      some fill) :
    OthersKept (World.reached at_ ops).store s' transaction.accountId fill.instrumentId ↔
      transaction ∈ (World.reached at_ ops).store.journal ∨
        OthersSettled (World.reached at_ ops).store transaction.accountId fill.instrumentId := by
  rcases (append_eq_success h).2 with
    ⟨rfl, hstored⟩ | ⟨row, before, after, source, event, hchecked, hposted⟩
  · exact iff_of_true (.refl _ _ _) (.inl hstored)
  · have hnew : transaction ∉ (World.reached at_ ops).store.journal := by
      intro hmem
      exact hposted.journal.2.2.2.2.2.1 transaction hmem rfl
    have hsource : source = fill := Option.some.inj (hchecked.source.symm.trans hfill)
    have hid := hchecked.accountIds.1
    have hrow := Table.mem_of_get hchecked.account
    obtain ⟨opening, p, hrefines⟩ := (ledgerKept_reached at_ ops).refines row hrow
    obtain ⟨opening', hopening, hbefore, -⟩ := hchecked.replayed
    have hreplayed := hrefines.replayed
    have hsame : opening = opening' := by
      have hopened := hrefines.opened
      rw [hid] at hopened
      exact Option.some.inj (hopened.symm.trans hopening)
    rw [hsame, hid] at hreplayed
    have hp : p = before := Attempt.success.inj (hreplayed.symm.trans hbefore)
    rw [or_iff_right hnew, ← hid, ← hsource]
    exact othersKept_posted_iff hchecked hposted (hp ▸ hrefines)

end

/-! ## A concrete posting -/

section

open scoped CodeHashing

namespace Scenario

/-- What the broker makes of the concrete order and a bar that fills it, as an operation. -/
def executed : List Timed :=
  match execute policy (request {} {} [bar {}] 50) with
  | .success outcome => [(.applyPaperExecution (command {} {}) outcome 1, 50)]
  | _ => []

/-- The concrete account also holds ten units of another instrument, half of them sellable; its
order is executed and not posted yet. -/
def unsettled : List Timed :=
  (.registerAccount { snapshot {} with positions := [⟨2, 10, 5, 0, 1⟩] } "USD", 0) ::
    authorised {} ++ executed

def unsettledStore : Store := (World.reached 0 unsettled).store

/-- Posting the transaction makes all units of the other instrument sellable. -/
def SettlesAnother (t : JournalTransaction) : Prop :=
  unsettledStore.positionAmounts "paper" 2 = some (10, 5, 0) ∧
    (unsettledStore.append t 0 none 1 60).SucceedsWith fun result =>
      result.2.positionAmounts "paper" 2 = some (10, 10, 0)

instance (t : JournalTransaction) : Decidable (SettlesAnother t) :=
  inferInstanceAs (Decidable (_ ∧ Attempt.SucceedsWith _ _))

end Scenario

theorem unsettled_appended : ∃ (t : JournalTransaction) (f : Fill) (s' : Store),
    Scenario.unsettledStore.append t 0 none 1 60 = .success (t, s') ∧
      Table.get (·.fillId) Scenario.unsettledStore.fills t.sourceFillId = some f ∧
      f.instrumentId = 1 ∧ t.accountId = "paper" ∧
      Scenario.unsettledStore.positionAmounts "paper" 2 = some (10, 5, 0) ∧
      s'.positionAmounts "paper" 2 = some (10, 10, 0) := by
  have hrun : (Scenario.unsettledStore.getProjection "paper").SucceedsWith fun p =>
      ∃ f ∈ Scenario.unsettledStore.fills,
        (buildFillJournal f p repositoryPolicy).SucceedsWith fun t =>
          Table.get (·.fillId) Scenario.unsettledStore.fills t.sourceFillId = some f ∧
            f.instrumentId = 1 ∧ t.accountId = "paper" ∧ Scenario.SettlesAnother t := by
    decide +kernel
  obtain ⟨p, -, f, -, t, -, hfill, hinstrument, haccount, hbefore, ⟨t', s'⟩, happend, hafter⟩ :=
    hrun
  have ht : t' = t := (append_eq_success happend).1
  exact ⟨t, f, s', ht ▸ happend, hfill, hinstrument, haccount, hbefore, hafter⟩

theorem append_keeps_others_unsettled : ∃ (t : JournalTransaction) (f : Fill) (s' : Store),
    Scenario.unsettledStore.append t 0 none 1 60 = .success (t, s') ∧
      (OthersKept Scenario.unsettledStore s' t.accountId f.instrumentId ↔
        t ∈ Scenario.unsettledStore.journal ∨
          OthersSettled Scenario.unsettledStore t.accountId f.instrumentId) := by
  obtain ⟨t, f, s', happend, hfill, -⟩ := unsettled_appended
  exact ⟨t, f, s', happend, append_keeps_others_iff 0 Scenario.unsettled t t 0 none 1 60 f s'
    happend hfill⟩

/-- The fill of one instrument makes the unsettled units of another sellable. -/
theorem append_settles_another : ∃ (t : JournalTransaction) (f : Fill) (s' : Store),
    (World.reached 0 Scenario.unsettled).store.append t 0 none 1 60 = .success (t, s') ∧
      Table.get (·.fillId) (World.reached 0 Scenario.unsettled).store.fills t.sourceFillId =
        some f ∧
      ¬ OthersKept (World.reached 0 Scenario.unsettled).store s' t.accountId f.instrumentId := by
  obtain ⟨t, f, s', happend, hfill, hinstrument, haccount, hbefore, hafter⟩ := unsettled_appended
  refine ⟨t, f, s', happend, hfill, fun hkept => ?_⟩
  have hother : ("paper", 2) ≠ (t.accountId, f.instrumentId) := by
    rw [haccount, hinstrument]
    decide
  have hsame : s'.positionAmounts "paper" 2 = Scenario.unsettledStore.positionAmounts "paper" 2 :=
    hkept.positions "paper" 2 hother
  rw [hbefore, hafter] at hsame
  exact absurd hsame (by decide)

end

end StonksPaper
