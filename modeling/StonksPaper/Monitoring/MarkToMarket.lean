import StonksPaper.Domain.Monitoring
import StonksPaper.Ledger.Digits

/-!
# Mark to market

`mark_to_market.py`. A ledger is valued at one mark for every open position. What a successful
valuation says is stated twice: as the source computes it, and as conditions on the ledger and the
marks with the exact figures that follow from them, which are the computed ones as long as the
digits of the context hold them.
-/

namespace StonksPaper

open Chain Quantum

/-! ## The valuation -/

/-- `_money`; the place is that of the quantum. -/
def money [Arithmetic] (value place : Decimal) : Call Decimal := Decimal.quantize value place

/-- `item.ledger_account.startswith(("asset:cash:", "fee:execution:", "pnl:realized:"))`. -/
def LedgerAccount.isMonetary : LedgerAccount → Bool
  | .assetCash _ => true
  | .feeExecution _ => true
  | .pnlRealized _ => true
  | _ => false

namespace MarkToMarketCommand

section

variable [Arithmetic]

def currencyError (command : MarkToMarketCommand) : Call Unit :=
  failUnless (∀ item ∈ command.ledger.balances, item.ledgerAccount.isMonetary = true →
      item.balance ≠ 0 → item.commodity = .currency command.baseCurrency) .conflict
    "Cross-currency valuation requires an approved FX policy"

/-- One round of `_open_quantities`. The last part of an account of units is an identity. -/
def addQuantity (values : List (UUID × Decimal)) (item : LedgerAccountBalance) :
    Call (List (UUID × Decimal)) :=
  match item.ledgerAccount with
  | .inventoryUnits instrumentId =>
      if item.balance = 0 then return values
      else do
        failUnless (0 ≤ item.balance) .conflict "Valuation found a negative position"
        failUnless (item.commodity = .units instrumentId ∧ Table.Fresh (·.1) instrumentId values)
          .conflict "Valuation position identity changed"
        return values ++ [(instrumentId, item.balance)]
  | _ => return values

def openQuantities (command : MarkToMarketCommand) : Call (List (UUID × Decimal)) :=
  command.ledger.balances.foldlM addQuantity []

/-- One round of the loop over the open positions. The marks are of the same instruments, so
`marks[instrument_id]` finds one. -/
def valuePosition (command : MarkToMarketCommand) (position : UUID × Decimal) :
    Call PositionValuation := do
  let mark ← orFail .dataUnavailable "Valuation requires one exact mark for every open position"
    (Table.get (·.instrumentId) command.marks position.1)
  failUnless (mark.currency = command.baseCurrency ∧ mark.availableAt ≤ command.asOf) .conflict
    "Valuation mark is future or foreign"
  let marketValue ← money (kept (position.2 * mark.price)) command.currencyPlace
  let invalid : Exception → Option Failure
    | .valueError _ => some { code := .invalidInput, message := "Valuation mark is invalid" }
    | _ => none
  Attempt.absorb invalid <| modelValidate PositionValuation.validate
    { instrumentId := position.1
      quantity := position.2
      mark, marketValue
      currencyQuantum := command.currencyQuantum
      currencyPlace := command.currencyPlace }

variable [Hashing]

/-- The valuation that `PortfolioValuation.create` builds, before its validators run. -/
def portfolioValuation (command : MarkToMarketCommand) (positions : List PositionValuation)
    (cash fees realized : Decimal) : PortfolioValuation :=
  let positionValue := Arithmetic.context.sum (positions.map (·.marketValue))
  { valuationId := command.valuationId
    accountId := command.accountId
    baseCurrency := command.baseCurrency
    asOf := command.asOf
    ledgerSequence := command.ledger.ledgerSequence
    ledgerHash := command.ledger.ledgerHash
    ledgerProjectionHash := command.ledger.projectionHash
    currencyQuantum := command.currencyQuantum
    cashValue := cash
    positionValue
    nav := kept (cash + positionValue)
    cumulativeFees := fees
    realizedPnl := realized
    positions }

def buildValuation (command : MarkToMarketCommand) (positions : List PositionValuation) :
    Call PortfolioValuation := do
  let cash ← money (command.ledger.cash command.baseCurrency) command.currencyPlace
  let fees ← money (command.ledger.fees command.baseCurrency) command.currencyPlace
  let realized ← money (command.ledger.realizedPnl command.baseCurrency) command.currencyPlace
  let value := command.portfolioValuation positions cash fees realized
  failUnless (0 ≤ min (min cash fees) value.nav) .conflict "Valuation ledger totals are invalid"
  integrityChecked "Valuation output failed integrity checks" <|
    modelValidate PortfolioValuation.validate value

def markToMarket (command : MarkToMarketCommand) : Call PortfolioValuation := do
  failUnless (command.ledger.accountId = command.accountId) .conflict
    "Valuation account binding changed"
  failUnless (command.ledger.lastOccurredAt ≤ command.asOf) .conflict
    "Future ledger state cannot be valued"
  command.currencyError
  let quantities ← command.openQuantities
  failUnless ((command.marks.map (·.instrumentId)).Nodup ∧
      (∀ mark ∈ command.marks, mark.instrumentId ∈ quantities.map (·.1)) ∧
      ∀ position ∈ quantities, position.1 ∈ command.marks.map (·.instrumentId)) .dataUnavailable
    "Valuation requires one exact mark for every open position"
  let positions ← (sorted (·.1) quantities).mapM command.valuePosition
  command.buildValuation positions

end

end MarkToMarketCommand

/-! ## The open positions -/

section

variable {ledger : LedgerProjection} {items : List LedgerAccountBalance}
  {values result : List (UUID × Decimal)}

section

variable [Arithmetic]

/-- The units of an account that has some. -/
def LedgerAccountBalance.held (item : LedgerAccountBalance) : Option (UUID × Decimal) :=
  match item.ledgerAccount with
  | .inventoryUnits instrumentId =>
      if item.balance = 0 then none else some (instrumentId, item.balance)
  | _ => none

/-- The units of an account, if it has some, are a position in its own instrument. -/
def LedgerAccountBalance.IsPosition (item : LedgerAccountBalance) : Prop :=
  ∀ instrumentId, item.ledgerAccount = .inventoryUnits instrumentId → item.balance ≠ 0 →
    0 ≤ item.balance ∧ item.commodity = .units instrumentId

theorem LedgerAccountBalance.held_eq_some {item : LedgerAccountBalance}
    {position : UUID × Decimal} :
    item.held = some position ↔ item.ledgerAccount = .inventoryUnits position.1 ∧
      item.balance ≠ 0 ∧ item.balance = position.2 := by
  obtain ⟨i, x⟩ := position
  unfold held
  cases item.ledgerAccount with
  | inventoryUnits j =>
      by_cases hzero : item.balance = 0
      · simp [hzero]
      · simp [hzero]
  | assetCash => simp
  | clearingCash => simp
  | clearingUnits => simp
  | feeExecution => simp
  | inventoryValue => simp
  | pnlRealized => simp

theorem LedgerAccountBalance.IsPosition.key {item : LedgerAccountBalance}
    {position : UUID × Decimal} (h : item.IsPosition) (hheld : item.held = some position) :
    item.key = (.inventoryUnits position.1, .units position.1) := by
  obtain ⟨haccount, hbalance, -⟩ := held_eq_some.mp hheld
  exact Prod.ext haccount (h _ haccount hbalance).2

theorem addQuantity_eq_success {item : LedgerAccountBalance} :
    MarkToMarketCommand.addQuantity values item = .success result ↔ item.IsPosition ∧
      (∀ position, item.held = some position → Table.Fresh (·.1) position.1 values) ∧
      result = values ++ item.held.toList := by
  unfold MarkToMarketCommand.addQuantity LedgerAccountBalance.held LedgerAccountBalance.IsPosition
  cases item.ledgerAccount with
  | inventoryUnits i =>
      by_cases hzero : item.balance = 0
      · simp [hzero, eq_comm]
      · simp only [hzero, if_false, Attempt.bind_eq_success, failUnless_eq_success, Attempt.pure_eq,
          Attempt.success.injEq, LedgerAccount.inventoryUnits.injEq, Option.some.injEq,
          forall_eq', Option.toList_some]
        constructor
        · intro h
          obtain ⟨_, hnonneg, _, ⟨hcommodity, hfresh⟩, hresult⟩ := h
          exact ⟨fun _ => ⟨hnonneg, hcommodity⟩, hfresh, hresult.symm⟩
        · intro h
          obtain ⟨hposition, hfresh, hresult⟩ := h
          have hboth := hposition hzero
          exact ⟨(), hboth.1, (), ⟨hboth.2, hfresh⟩, hresult.symm⟩
  | assetCash => simp [eq_comm]
  | clearingCash => simp [eq_comm]
  | clearingUnits => simp [eq_comm]
  | feeExecution => simp [eq_comm]
  | inventoryValue => simp [eq_comm]
  | pnlRealized => simp [eq_comm]

/-- The loop collects the units of the accounts, if these are positions under unique keys. -/
theorem foldlM_addQuantity (hunique : Table.Unique (·.key) items)
    (hfresh : ∀ item ∈ items, ∀ i, item.key = (.inventoryUnits i, .units i) →
      Table.Fresh (·.1) i values) :
    items.foldlM MarkToMarketCommand.addQuantity values = .success result ↔
      (∀ item ∈ items, item.IsPosition) ∧ result = values ++ items.filterMap (·.held) := by
  induction items generalizing values with
  | nil => simp [eq_comm]
  | cons item items ih =>
      have hrest : Table.Unique (·.key) items := (List.nodup_cons.mp hunique).2
      have hother : ∀ other ∈ items, other.key ≠ item.key := by
        intro other hmem hkey
        exact (List.nodup_cons.mp hunique).1 (List.mem_map.mpr ⟨other, hmem, hkey⟩)
      have hnext : item.IsPosition → ∀ other ∈ items, ∀ i,
          other.key = (.inventoryUnits i, .units i) →
            Table.Fresh (·.1) i (values ++ item.held.toList) := by
        intro hposition other hmem i hkey position hheld hid
        rcases List.mem_append.mp hheld with hold | hnew
        · exact hfresh other (List.mem_cons_of_mem _ hmem) i hkey position hold hid
        · have hitem := hposition.key (Option.mem_toList.mp hnew)
          rw [show position.1 = i from hid] at hitem
          exact hother other hmem (hkey.trans hitem.symm)
      rw [List.foldlM_cons, List.forall_mem_cons]
      simp only [Attempt.bind_eq_success, addQuantity_eq_success]
      have hcollected : (item :: items).filterMap (·.held) =
          item.held.toList ++ items.filterMap (·.held) := by
        rw [List.filterMap_cons]
        cases item.held <;> rfl
      constructor
      · intro h
        obtain ⟨next, ⟨hposition, -, rfl⟩, hloop⟩ := h
        obtain ⟨hall, rfl⟩ := (ih hrest (hnext hposition)).mp hloop
        exact ⟨⟨hposition, hall⟩, by rw [hcollected, List.append_assoc]⟩
      · intro h
        obtain ⟨⟨hposition, hall⟩, rfl⟩ := h
        refine ⟨_, ⟨hposition, fun position hheld => ?_, rfl⟩, ?_⟩
        · exact hfresh item List.mem_cons_self _ (hposition.key hheld)
        · exact (ih hrest (hnext hposition)).mpr
            ⟨hall, by rw [hcollected, List.append_assoc]⟩

end

section

open scoped ExactArithmetic

/-- The open positions are what the ledger has of an instrument. -/
theorem mem_held (hunique : ledger.KeysUnique)
    (hpositions : ∀ item ∈ ledger.balances, item.IsPosition) {position : UUID × Decimal} :
    position ∈ ledger.balances.filterMap (·.held) ↔
      ledger.position position.1 ≠ 0 ∧ position.2 = ledger.position position.1 := by
  rw [List.mem_filterMap]
  constructor
  · intro h
    obtain ⟨item, hitem, hheld⟩ := h
    have hkey := (hpositions item hitem).key hheld
    have hbalance := LedgerProjection.accountBalance_of_mem hunique hitem
    rw [hkey] at hbalance
    obtain ⟨-, hne, hquantity⟩ := LedgerAccountBalance.held_eq_some.mp hheld
    have hposition : ledger.position position.1 = item.balance := hbalance
    rw [hposition]
    exact ⟨hne, hquantity.symm⟩
  · intro h
    obtain ⟨hne, hquantity⟩ := h
    unfold LedgerProjection.position LedgerProjection.accountBalance at hne hquantity
    cases hfind : ledger.balances.find?
        (·.key = (.inventoryUnits position.1, .units position.1)) with
    | none =>
        rw [hfind] at hne
        exact absurd rfl hne
    | some item =>
        rw [hfind] at hne hquantity
        have hkey : item.key = (.inventoryUnits position.1, .units position.1) := by
          simpa using List.find?_some hfind
        refine ⟨item, List.mem_of_find?_eq_some hfind, ?_⟩
        exact LedgerAccountBalance.held_eq_some.mpr
          ⟨(Prod.ext_iff.mp hkey).1, hne, hquantity.symm⟩

theorem held_unique (hunique : ledger.KeysUnique)
    (hpositions : ∀ item ∈ ledger.balances, item.IsPosition) :
    Table.Unique (·.1) (ledger.balances.filterMap (·.held)) := by
  unfold Table.Unique List.Nodup
  rw [List.pairwise_map, List.pairwise_filterMap]
  have hkeys : ledger.balances.Pairwise fun a b => a.key ≠ b.key := List.pairwise_map.mp hunique
  refine hkeys.imp_of_mem fun ha hb hne position hposition other hother hsame => hne ?_
  rw [(hpositions _ ha).key hposition, (hpositions _ hb).key hother, hsame]

end

end

/-! ## What a valuation needs -/

namespace MarkToMarketCommand

variable {command : MarkToMarketCommand} {mark : PointInTimeMark} {p : PositionValuation}
  {positions : List PositionValuation}

section

open scoped ExactArithmetic

def notional (command : MarkToMarketCommand) (mark : PointInTimeMark) : Decimal :=
  command.ledger.position mark.instrumentId * mark.price

def valued (command : MarkToMarketCommand) (mark : PointInTimeMark) : PositionValuation :=
  { instrumentId := mark.instrumentId
    quantity := command.ledger.position mark.instrumentId
    mark
    marketValue := halfEvenTo (command.notional mark) command.currencyPlace
    currencyQuantum := command.currencyQuantum
    currencyPlace := command.currencyPlace }

def valuedPositions (command : MarkToMarketCommand) : List PositionValuation :=
  (sorted (·.instrumentId) command.marks).map command.valued

def cashValue (command : MarkToMarketCommand) : Decimal :=
  halfEvenTo (command.ledger.cash command.baseCurrency) command.currencyPlace

def feesValue (command : MarkToMarketCommand) : Decimal :=
  halfEvenTo (command.ledger.fees command.baseCurrency) command.currencyPlace

def realizedValue (command : MarkToMarketCommand) : Decimal :=
  halfEvenTo (command.ledger.realizedPnl command.baseCurrency) command.currencyPlace

def valuation [Hashing] (command : MarkToMarketCommand) : PortfolioValuation :=
  command.portfolioValuation command.valuedPositions command.cashValue command.feesValue
    command.realizedValue

theorem valuation_positionValue [Hashing] : command.valuation.positionValue =
    (command.valuedPositions.map (·.marketValue)).sum := Context.sum_exact _

theorem valuation_nav [Hashing] : command.valuation.nav =
    command.cashValue + (command.valuedPositions.map (·.marketValue)).sum :=
  congrArg (command.cashValue + ·) (Context.sum_exact _)

/-- The ledger can be valued at the marks. -/
structure Valuable (command : MarkToMarketCommand) : Prop where
  account : command.ledger.accountId = command.accountId
  time : command.ledger.lastOccurredAt ≤ command.asOf
  currency : ∀ item ∈ command.ledger.balances, item.ledgerAccount.isMonetary = true →
    item.balance ≠ 0 → item.commodity = .currency command.baseCurrency
  positions : ∀ item ∈ command.ledger.balances, item.IsPosition
  unique : Table.Unique (·.instrumentId) command.marks
  open_iff : ∀ i, command.ledger.position i ≠ 0 ↔ ∃ mark ∈ command.marks, mark.instrumentId = i
  marks : ∀ mark ∈ command.marks, (mark.currency = command.baseCurrency ∧
    mark.availableAt ≤ command.asOf) ∧
      IsQuantized (command.valued mark).marketValue command.currencyQuantum
  cash : 0 ≤ command.cashValue ∧ IsQuantized command.cashValue command.currencyQuantum
  fees : 0 ≤ command.feesValue ∧ IsQuantized command.feesValue command.currencyQuantum
  realized : IsQuantized command.realizedValue command.currencyQuantum

def unrounded (command : MarkToMarketCommand) : List Decimal :=
  [command.ledger.cash command.baseCurrency, command.ledger.fees command.baseCurrency,
    command.ledger.realizedPnl command.baseCurrency] ++ command.marks.map command.notional

/-- The money of a valuation. -/
def figures (command : MarkToMarketCommand) : List Decimal :=
  let positionValue := (command.valuedPositions.map (·.marketValue)).sum
  [command.cashValue, positionValue, command.cashValue + positionValue, command.feesValue,
    command.realizedValue]

end

/-- No figure of the valuation is rounded to the digits of the context, and every one fits its
field. -/
structure FiguresKept [Arithmetic] (command : MarkToMarketCommand) : Prop where
  balances : ∀ item ∈ command.ledger.balances, IsKept (item.debitTotal - item.creditTotal)
  notionals : ∀ mark ∈ command.marks, IsKept (command.notional mark)
  holds : ∀ amount ∈ command.unrounded,
    Arithmetic.context.Holds (halfEven (amount / command.currencyPlace))
  sums : ∀ summed ∈ (command.valuedPositions.map (·.marketValue)).inits, IsKept summed.sum
  figures : ∀ amount ∈ command.figures, IsKept amount ∧ Takes amount command.currencyQuantum
  quantities : ∀ mark ∈ command.marks,
    Arithmetic.context.Below (10 ^ 65) (command.valued mark).quantity
  values : ∀ mark ∈ command.marks,
    Takes (command.valued mark).marketValue command.currencyQuantum

instance [Arithmetic] (command : MarkToMarketCommand) : Decidable command.FiguresKept :=
  decidable_of_iff
    ((∀ item ∈ command.ledger.balances, IsKept (item.debitTotal - item.creditTotal)) ∧
      (∀ mark ∈ command.marks, IsKept (command.notional mark)) ∧
      (∀ amount ∈ command.unrounded,
        Arithmetic.context.Holds (halfEven (amount / command.currencyPlace))) ∧
      (∀ summed ∈ (command.valuedPositions.map (·.marketValue)).inits, IsKept summed.sum) ∧
      (∀ amount ∈ command.figures, IsKept amount ∧ Takes amount command.currencyQuantum) ∧
      (∀ mark ∈ command.marks, Arithmetic.context.Below (10 ^ 65) (command.valued mark).quantity) ∧
      ∀ mark ∈ command.marks, Takes (command.valued mark).marketValue command.currencyQuantum)
    ⟨fun ⟨h1, h2, h3, h4, h5, h6, h7⟩ => ⟨h1, h2, h3, h4, h5, h6, h7⟩,
      fun ⟨h1, h2, h3, h4, h5, h6, h7⟩ => ⟨h1, h2, h3, h4, h5, h6, h7⟩⟩

section

open scoped ExactArithmetic

/-- The open positions and the marks in step. -/
theorem sorted_held (hledger : command.ledger.KeysUnique)
    (hpositions : ∀ item ∈ command.ledger.balances, item.IsPosition)
    (hunique : Table.Unique (·.instrumentId) command.marks)
    (hopen : ∀ i, command.ledger.position i ≠ 0 ↔
      ∃ mark ∈ command.marks, mark.instrumentId = i) :
    sorted (·.1) (command.ledger.balances.filterMap (·.held)) =
      (sorted (·.instrumentId) command.marks).map fun mark =>
        (mark.instrumentId, (command.valued mark).quantity) := by
  have hids : (command.marks.map fun mark =>
      (mark.instrumentId, (command.valued mark).quantity)).map (·.1) =
        command.marks.map (·.instrumentId) := by
    rw [List.map_map]
    rfl
  have hnodup : ((command.marks.map fun mark =>
      (mark.instrumentId, (command.valued mark).quantity)).map (·.1)).Nodup := by
    rw [hids]
    exact hunique
  have hperm : (command.ledger.balances.filterMap (·.held)).Perm (command.marks.map fun mark =>
      (mark.instrumentId, (command.valued mark).quantity)) := by
    have hheld := held_unique hledger hpositions
    refine (List.perm_ext_iff_of_nodup (.of_map _ hheld) (.of_map _ hnodup)).mpr fun position => ?_
    rw [mem_held hledger hpositions, hopen, List.mem_map]
    constructor
    · intro h
      obtain ⟨⟨mark, hmark, hid⟩, hquantity⟩ := h
      exact ⟨mark, hmark, Prod.ext hid (by rw [hquantity, ← hid]; rfl)⟩
    · intro h
      obtain ⟨mark, hmark, rfl⟩ := h
      exact ⟨⟨mark, hmark, rfl⟩, rfl⟩
  rw [sorted_eq_of_perm hperm hnodup]
  have hmap := List.map_insertionSort (fun a b : PointInTimeMark => a.instrumentId ≤ b.instrumentId)
    (fun a b : UUID × Decimal => a.1 ≤ b.1) (fun mark : PointInTimeMark =>
      (mark.instrumentId, (command.valued mark).quantity)) command.marks
    fun _ _ _ _ => Iff.rfl
  exact hmap.symm

theorem position_pos (hledger : command.ledger.KeysUnique)
    (hpositions : ∀ item ∈ command.ledger.balances, item.IsPosition) {i : UUID}
    (hopen : command.ledger.position i ≠ 0) : 0 < command.ledger.position i := by
  have hmem : (i, command.ledger.position i) ∈ command.ledger.balances.filterMap (·.held) :=
    (mem_held hledger hpositions).mpr ⟨hopen, rfl⟩
  obtain ⟨item, hitem, hheld⟩ := List.mem_filterMap.mp hmem
  obtain ⟨haccount, hne, hbalance⟩ := LedgerAccountBalance.held_eq_some.mp hheld
  have hnonneg := (hpositions item hitem i haccount hne).1
  have hquantity : item.balance = command.ledger.position i := hbalance
  rw [hquantity] at hnonneg
  exact lt_of_le_of_ne hnonneg (Ne.symm hopen)

theorem valuedPositions_perm : command.valuedPositions.Perm (command.marks.map command.valued) :=
  (sorted_perm _ _).map _

theorem mem_valuedPositions : p ∈ command.valuedPositions ↔
    ∃ mark ∈ command.marks, command.valued mark = p := by
  rw [valuedPositions_perm.mem_iff, List.mem_map]

/-- The marks are of the open positions. -/
theorem marked_iff (hledger : command.ledger.KeysUnique)
    (hpositions : ∀ item ∈ command.ledger.balances, item.IsPosition) :
    ((∀ mark ∈ command.marks,
        mark.instrumentId ∈ (command.ledger.balances.filterMap (·.held)).map (·.1)) ∧
      ∀ position ∈ command.ledger.balances.filterMap (·.held),
        position.1 ∈ command.marks.map (·.instrumentId)) ↔
    ∀ i, command.ledger.position i ≠ 0 ↔ ∃ mark ∈ command.marks, mark.instrumentId = i := by
  have hids : ∀ i, i ∈ (command.ledger.balances.filterMap (·.held)).map (·.1) ↔
      command.ledger.position i ≠ 0 := by
    intro i
    rw [List.mem_map]
    constructor
    · intro h
      obtain ⟨position, hposition, rfl⟩ := h
      exact ((mem_held hledger hpositions).mp hposition).1
    · intro h
      exact ⟨(i, command.ledger.position i), (mem_held hledger hpositions).mpr ⟨h, rfl⟩, rfl⟩
  constructor
  · intro h i
    constructor
    · intro hopen
      have hmem := h.2 (i, command.ledger.position i)
        ((mem_held hledger hpositions).mpr ⟨hopen, rfl⟩)
      exact List.mem_map.mp hmem
    · intro hmarked
      obtain ⟨mark, hmark, rfl⟩ := hmarked
      exact (hids _).mp (h.1 mark hmark)
  · intro h
    refine ⟨fun mark hmark => (hids _).mpr ((h _).mpr ⟨mark, hmark, rfl⟩), ?_⟩
    intro position hposition
    have hopen := ((mem_held hledger hpositions).mp hposition).1
    exact List.mem_map.mpr ((h _).mp hopen)

theorem Valuable.quantity_pos (h : command.Valuable) (hvalid : command.Valid)
    (hmark : mark ∈ command.marks) : 0 < (command.valued mark).quantity :=
  position_pos (LedgerProjection.keysUnique_of_validate hvalid.ledger) h.positions
    ((h.open_iff mark.instrumentId).mpr ⟨mark, hmark, rfl⟩)

theorem Valuable.marketValue_nonneg (h : command.Valuable) (hvalid : command.Valid)
    (hwritten : command.Written) (hmark : mark ∈ command.marks) :
    0 ≤ (command.valued mark).marketValue :=
  halfEvenTo_nonneg hwritten.pos
    (mul_nonneg (h.quantity_pos hvalid hmark).le (hvalid.prices mark hmark).le)

end

/-! ## What a valuation computes -/

section

variable [Arithmetic]

theorem FiguresKept.balance_eq (h : command.FiguresKept) {item : LedgerAccountBalance}
    (hitem : item ∈ command.ledger.balances) : item.balance = exactly item.balance :=
  h.balances item hitem

theorem FiguresKept.accountBalance_eq (h : command.FiguresKept) (key : LedgerKey) :
    command.ledger.accountBalance key = exactly (command.ledger.accountBalance key) := by
  simp only [LedgerProjection.accountBalance, exactly]
  cases hfind : command.ledger.balances.find? (·.key = key) with
  | none => rfl
  | some item => exact h.balance_eq (List.mem_of_find?_eq_some hfind)

theorem FiguresKept.realizedPnl_eq (h : command.FiguresKept) :
    command.ledger.realizedPnl command.baseCurrency =
      exactly (command.ledger.realizedPnl command.baseCurrency) := by
  have hbalance := h.accountBalance_eq
    (.pnlRealized command.baseCurrency, .currency command.baseCurrency)
  simp only [LedgerProjection.realizedPnl, exactly, kept_exact] at hbalance ⊢
  rw [kept_neg, ← hbalance]
  refine congrArg Neg.neg ?_
  rw [LedgerProjection.accountBalance_eq_kept, kept_kept]

theorem FiguresKept.held_eq (h : command.FiguresKept) :
    command.ledger.balances.filterMap (·.held) =
      command.ledger.balances.filterMap fun item => exactly item.held := by
  refine List.filterMap_congr fun item hitem => ?_
  simp only [LedgerAccountBalance.held, exactly]
  rw [h.balance_eq hitem]

theorem openQuantities_eq_success (hkept : command.FiguresKept)
    (hledger : command.ledger.KeysUnique) {quantities : List (UUID × Decimal)} :
    command.openQuantities = .success quantities ↔
      (∀ item ∈ command.ledger.balances, exactly item.IsPosition) ∧
        quantities = command.ledger.balances.filterMap fun item => exactly item.held := by
  have hfresh : ∀ item ∈ command.ledger.balances, ∀ i,
      item.key = (.inventoryUnits i, .units i) → Table.Fresh (·.1) i ([] : List (UUID × Decimal)) :=
    fun _ _ _ _ position hposition => absurd hposition List.not_mem_nil
  have hpositions : ∀ item ∈ command.ledger.balances,
      (item.IsPosition ↔ exactly item.IsPosition) := by
    intro item hitem
    simp only [LedgerAccountBalance.IsPosition, exactly]
    rw [hkept.balance_eq hitem]
  rw [openQuantities, foldlM_addQuantity hledger hfresh, hkept.held_eq, List.nil_append]
  exact and_congr_left' (forall₂_congr hpositions)

theorem valued_validate (hkept : command.FiguresKept) (hmark : mark ∈ command.marks) :
    (command.valued mark).validate = .success () ↔
      0 < (command.valued mark).quantity ∧ 0 ≤ (command.valued mark).marketValue ∧
        IsQuantized (command.valued mark).marketValue command.currencyQuantum := by
  have hnotional : kept (command.notional mark) = command.notional mark :=
    hkept.notionals mark hmark
  have hholds := hkept.holds (command.notional mark)
    (List.mem_append_right _ (List.mem_map_of_mem hmark))
  simp only [PositionValuation.validate, Attempt.bind_eq_success, positiveDecimal_eq_success,
    nonNegativeDecimal_eq_success, raiseUnless_eq_success, Decimal.quantize_eq_success]
  constructor
  · intro h
    obtain ⟨_, hquantity, _, -, _, hvalue, _, -, _, -, _, -, -, hquantized, -⟩ := h
    exact ⟨hquantity, hvalue, hquantized⟩
  · intro h
    obtain ⟨hquantity, hvalue, hquantized⟩ := h
    refine ⟨(), hquantity, (), hkept.quantities mark hmark, (), hvalue, (), hquantized.pos, (), rfl,
      _, ⟨?_, rfl⟩, ?_, hquantized, hkept.values mark hmark⟩
    · change Arithmetic.context.Holds (halfEven (kept (command.notional mark) / _))
      rw [hnotional]
      exact hholds
    · change _ = halfEvenTo (kept (command.notional mark)) _
      rw [hnotional]
      rfl

theorem valuePosition_eq_success (hkept : command.FiguresKept)
    (hunique : Table.Unique (·.instrumentId) command.marks) (hmark : mark ∈ command.marks) :
    command.valuePosition (mark.instrumentId, (command.valued mark).quantity) = .success p ↔
      ((mark.currency = command.baseCurrency ∧ mark.availableAt ≤ command.asOf) ∧
        0 < (command.valued mark).quantity ∧ 0 ≤ (command.valued mark).marketValue ∧
          IsQuantized (command.valued mark).marketValue command.currencyQuantum) ∧
      p = command.valued mark := by
  have hget : Table.get (·.instrumentId) command.marks mark.instrumentId = some mark :=
    Table.get_of_mem hunique hmark
  have hnotional : kept ((command.valued mark).quantity * mark.price) = command.notional mark :=
    hkept.notionals mark hmark
  have hholds := hkept.holds (command.notional mark)
    (List.mem_append_right _ (List.mem_map_of_mem hmark))
  rw [← valued_validate hkept hmark]
  simp only [valuePosition, hget, money, Attempt.bind_eq_success, orFail_eq_success,
    failUnless_eq_success, Attempt.absorb_eq_success, modelValidate_eq_success,
    Decimal.quantize_eq_success]
  constructor
  · intro h
    obtain ⟨_, hsame, _, hbinding, value, ⟨-, rfl⟩, hvalid, rfl⟩ := h
    obtain rfl := Option.some.inj hsame
    rw [hnotional] at hvalid ⊢
    exact ⟨⟨hbinding, hvalid⟩, rfl⟩
  · intro h
    obtain ⟨⟨hbinding, hvalid⟩, rfl⟩ := h
    refine ⟨mark, rfl, (), hbinding, _, ⟨?_, rfl⟩, ?_, ?_⟩
    · rw [hnotional]
      exact hholds
    · rw [hnotional]
      exact hvalid
    · rw [hnotional]
      rfl

/-- The marks value the open positions, one by one. -/
theorem mapM_valuePosition (hkept : command.FiguresKept) (hledger : command.ledger.KeysUnique)
    (hpositions : ∀ item ∈ command.ledger.balances, exactly item.IsPosition)
    (hunique : Table.Unique (·.instrumentId) command.marks)
    (hopen : ∀ i, exactly (command.ledger.position i) ≠ 0 ↔
      ∃ mark ∈ command.marks, mark.instrumentId = i) :
    (sorted (·.1) (command.ledger.balances.filterMap fun item => exactly item.held)).mapM
        command.valuePosition = .success positions ↔
      (∀ mark ∈ command.marks, (mark.currency = command.baseCurrency ∧
          mark.availableAt ≤ command.asOf) ∧
        0 < (command.valued mark).quantity ∧ 0 ≤ (command.valued mark).marketValue ∧
          IsQuantized (command.valued mark).marketValue command.currencyQuantum) ∧
      positions = command.valuedPositions := by
  have hrounds : ∀ {marks : List PointInTimeMark} {positions : List PositionValuation},
      (∀ mark ∈ marks, mark ∈ command.marks) →
      (List.Forall₂ (fun mark p => command.valuePosition
          (mark.instrumentId, (command.valued mark).quantity) = .success p) marks positions ↔
      (∀ mark ∈ marks, (mark.currency = command.baseCurrency ∧
          mark.availableAt ≤ command.asOf) ∧
        0 < (command.valued mark).quantity ∧ 0 ≤ (command.valued mark).marketValue ∧
          IsQuantized (command.valued mark).marketValue command.currencyQuantum) ∧
      positions = marks.map command.valued) := by
    intro marks
    induction marks with
    | nil => simp
    | cons mark marks ih =>
        intro positions hmem
        have hrest := @ih
        have hmark := hmem mark List.mem_cons_self
        rw [List.forall₂_cons_left_iff, List.forall_mem_cons, List.map_cons]
        constructor
        · intro h
          obtain ⟨p, rest, hp, hloop, rfl⟩ := h
          obtain ⟨hvalid, rfl⟩ := (valuePosition_eq_success hkept hunique hmark).mp hp
          obtain ⟨hall, rfl⟩ := (hrest fun m hm => hmem m (List.mem_cons_of_mem _ hm)).mp hloop
          exact ⟨⟨hvalid, hall⟩, rfl⟩
        · intro h
          obtain ⟨⟨hvalid, hall⟩, rfl⟩ := h
          exact ⟨_, _, (valuePosition_eq_success hkept hunique hmark).mpr ⟨hvalid, rfl⟩,
            (hrest fun m hm => hmem m (List.mem_cons_of_mem _ hm)).mpr ⟨hall, rfl⟩, rfl⟩
  rw [Attempt.mapM_eq_success, sorted_held hledger hpositions hunique hopen,
    List.forall₂_map_left_iff, hrounds fun mark hmark => mem_sorted.mp hmark]
  simp only [mem_sorted, valuedPositions]

variable [Hashing] {v : PortfolioValuation}

theorem FiguresKept.portfolioValuation_eq (h : command.FiguresKept) :
    command.portfolioValuation command.valuedPositions command.cashValue command.feesValue
      command.realizedValue = command.valuation := by
  have hsum : Arithmetic.context.sum (command.valuedPositions.map (·.marketValue)) =
      (command.valuedPositions.map (·.marketValue)).sum := by
    refine Context.sum_eq_of_prefixes fun summed hsummed => ?_
    exact h.sums summed ((List.mem_inits _ _).mpr hsummed)
  have hexact : Context.exact.sum (command.valuedPositions.map (·.marketValue)) =
      (command.valuedPositions.map (·.marketValue)).sum := Context.sum_exact _
  have hnav : kept (command.cashValue + (command.valuedPositions.map (·.marketValue)).sum) =
      command.cashValue + (command.valuedPositions.map (·.marketValue)).sum :=
    (h.figures _ (by simp [MarkToMarketCommand.figures])).1
  simp only [valuation, portfolioValuation, hsum, hnav, context_exact, hexact, kept_exact]

theorem buildValuation_eq_success (hkept : command.FiguresKept) :
    command.buildValuation command.valuedPositions = .success v ↔
      (0 ≤ min (min command.cashValue command.feesValue) command.valuation.nav) ∧
        command.valuation.validate = .success () ∧ v = command.valuation := by
  have hcash := hkept.holds (exactly (command.ledger.cash command.baseCurrency))
      (by simp [unrounded])
  have hfees := hkept.holds (exactly (command.ledger.fees command.baseCurrency))
      (by simp [unrounded])
  have hrealized := hkept.holds (exactly (command.ledger.realizedPnl command.baseCurrency))
    (by simp [unrounded])
  have hcash' : command.ledger.cash command.baseCurrency =
      exactly (command.ledger.cash command.baseCurrency) := hkept.accountBalance_eq _
  have hfees' : command.ledger.fees command.baseCurrency =
      exactly (command.ledger.fees command.baseCurrency) := hkept.accountBalance_eq _
  simp only [buildValuation, money, Attempt.bind_eq_success, failUnless_eq_success,
    integrityChecked_eq_success, modelValidate_eq_success, Decimal.quantize_eq_success, hcash',
    hfees', hkept.realizedPnl_eq]
  rw [← hkept.portfolioValuation_eq]
  constructor
  · intro h
    obtain ⟨_, ⟨-, rfl⟩, _, ⟨-, rfl⟩, _, ⟨-, rfl⟩, _, hmin, hvalid, rfl⟩ := h
    exact ⟨hmin, hvalid, rfl⟩
  · intro h
    obtain ⟨hmin, hvalid, rfl⟩ := h
    exact ⟨_, ⟨hcash, rfl⟩, _, ⟨hfees, rfl⟩, _, ⟨hrealized, rfl⟩, (), hmin, hvalid, rfl⟩

/-- The valuation of a ledger that can be valued passes its own checks. -/
theorem Valuable.validate (h : command.Valuable) (hvalid : command.Valid)
    (hwritten : command.Written) (hkept : command.FiguresKept) :
    command.valuation.validate = .success () ∧ 0 ≤ command.valuation.nav := by
  have hmem : ∀ p ∈ command.valuedPositions, ∃ mark ∈ command.marks, p = command.valued mark := by
    intro p hp
    obtain ⟨mark, hmark, rfl⟩ := mem_valuedPositions.mp hp
    exact ⟨mark, hmark, rfl⟩
  have hquantized : IsQuantized (command.valuedPositions.map (·.marketValue)).sum
      command.currencyQuantum := by
    refine Quantum.isQuantized_sum hvalid.quantum_pos fun value hvalue => ?_
    obtain ⟨p, hp, rfl⟩ := List.mem_map.mp hvalue
    obtain ⟨mark, hmark, rfl⟩ := hmem p hp
    exact (h.marks mark hmark).2
  have hnonneg : 0 ≤ (command.valuedPositions.map (·.marketValue)).sum := by
    refine List.sum_nonneg fun value hvalue => ?_
    obtain ⟨p, hp, rfl⟩ := List.mem_map.mp hvalue
    obtain ⟨mark, hmark, rfl⟩ := hmem p hp
    exact h.marketValue_nonneg hvalid hwritten hmark
  have hlength : command.valuedPositions.length ≤ tupleLimit := by
    rw [valuedPositions_perm.length_eq, List.length_map]
    exact hvalid.length
  have hsorted : SortedUnique (command.valuedPositions.map (·.instrumentId)) := by
    rw [valuedPositions, List.map_map]
    exact sortedUnique_map_sorted.mpr h.unique
  have hnav : 0 ≤ command.valuation.nav := by
    rw [valuation_nav]
    exact add_nonneg h.cash.1 hnonneg
  obtain ⟨-, -, -, hhash, -, -⟩ := LedgerProjection.validate_iff.mp hvalid.ledger
  refine ⟨PortfolioValuation.validate_iff.mpr ⟨hvalid.account, hvalid.currency, hvalid.quantum_pos,
    h.cash.1, valuation_positionValue ▸ hnonneg, hnav, h.fees.1, hlength, hhash, hsorted, ?_, ?_,
      ?_, ?_, ?_⟩, hnav⟩
  · intro p hp
    obtain ⟨mark, hmark, rfl⟩ := hmem p hp
    exact (h.marks mark hmark).1.1
  · intro p hp
    obtain ⟨mark, hmark, rfl⟩ := hmem p hp
    exact (h.marks mark hmark).1.2
  · rw [← hkept.portfolioValuation_eq]
    rfl
  · rw [← hkept.portfolioValuation_eq]
    rfl
  · intro item hitem
    have hfigure : item ∈ command.figures := by
      rw [valuation_positionValue, valuation_nav] at hitem
      exact hitem
    refine ⟨?_, (hkept.figures item hfigure).2⟩
    simp only [figures, List.mem_cons, List.not_mem_nil, or_false] at hfigure
    rcases hfigure with rfl | rfl | rfl | rfl | rfl
    · exact h.cash.2
    · exact hquantized
    · exact h.cash.2.add hquantized
    · exact h.fees.2
    · exact h.realized

/-- A valuation of which no figure is rounded to the context succeeds exactly if the ledger can be
valued at the marks, and is then made of the figures of the ledger and of the marked positions. -/
theorem markToMarket_eq_success (hvalid : command.Valid) (hwritten : command.Written)
    (hkept : command.FiguresKept) :
    command.markToMarket = .success v ↔ command.Valuable ∧ v = command.valuation := by
  have hledger := LedgerProjection.keysUnique_of_validate hvalid.ledger
  have hcurrency : command.currencyError = .success () ↔ ∀ item ∈ command.ledger.balances,
      item.ledgerAccount.isMonetary = true → exactly item.balance ≠ 0 →
        item.commodity = .currency command.baseCurrency := by
    rw [currencyError, failUnless_eq_success]
    refine forall₂_congr fun item hitem => ?_
    rw [hkept.balance_eq hitem]
  simp only [markToMarket, Attempt.bind_eq_success, failUnless_eq_success,
    openQuantities_eq_success hkept hledger]
  constructor
  · intro h
    obtain ⟨_, haccount, _, htime, _, hmoney, _, ⟨hpositions, rfl⟩, _, ⟨hunique, hmarked⟩,
      valued, hvalued, hbuild⟩ := h
    have hopen := (marked_iff hledger hpositions).mp hmarked
    obtain ⟨hmarks, rfl⟩ :=
      (mapM_valuePosition hkept hledger hpositions hunique hopen).mp hvalued
    obtain ⟨-, hbuilt, rfl⟩ := (buildValuation_eq_success hkept).mp hbuild
    obtain ⟨-, -, -, hcash, -, -, hfees, -, -, -, -, -, -, -, hfigures⟩ :=
      PortfolioValuation.validate_iff.mp hbuilt
    refine ⟨⟨haccount, htime, hcurrency.mp hmoney, hpositions, hunique, hopen, fun mark hmark =>
      ⟨(hmarks mark hmark).1, (hmarks mark hmark).2.2.2⟩, ⟨hcash, ?_⟩, ⟨hfees, ?_⟩, ?_⟩, rfl⟩
    · exact (hfigures command.cashValue (by simp [valuation, portfolioValuation])).1
    · exact (hfigures command.feesValue (by simp [valuation, portfolioValuation])).1
    · exact (hfigures command.realizedValue (by simp [valuation, portfolioValuation])).1
  · intro h
    obtain ⟨h, rfl⟩ := h
    obtain ⟨hbuilt, hnav⟩ := h.validate hvalid hwritten hkept
    refine ⟨(), h.account, (), h.time, (), hcurrency.mpr h.currency, _, ⟨h.positions, rfl⟩, (),
      ⟨h.unique, (marked_iff hledger h.positions).mpr h.open_iff⟩, _,
      (mapM_valuePosition hkept hledger h.positions h.unique h.open_iff).mpr ⟨fun mark hmark =>
        ⟨(h.marks mark hmark).1, h.quantity_pos hvalid hmark,
          h.marketValue_nonneg hvalid hwritten hmark, (h.marks mark hmark).2⟩, rfl⟩,
      (buildValuation_eq_success hkept).mpr
        ⟨le_min (le_min h.cash.1 h.fees.1) hnav, hbuilt, rfl⟩⟩

end

end MarkToMarketCommand

end StonksPaper
