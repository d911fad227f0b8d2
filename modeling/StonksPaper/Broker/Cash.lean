import StonksPaper.Broker.Accounting
import StonksPaper.Ledger.Postings

/-!
# The cash that a fill takes

A fill against a cash reservation is posted by the ledger later, from its own currency, notional
and fee. The broker has the currency from the bar, and it rounds what the fill takes from the
reservation up once, where the ledger rounds the notional and the fee apart.
-/

namespace StonksPaper

open Chain Quantum

section

variable [Arithmetic] [Hashing] {policy : PaperExecutionPolicy} {request : PaperExecutionRequest}
  {o : PaperExecutionOutcome}

/-- The step that made a fill the request did not bring. -/
def FilledBy (policy : PaperExecutionPolicy) (request : PaperExecutionRequest)
    (o : PaperExecutionOutcome) (f : Fill) : Prop :=
  ∃ latest event change bar price quantity,
    FillStep policy request latest event f change bar price quantity ∧
      o.reservationConsumed = change.consumed

omit [Arithmetic] in
theorem releaseSurplus_consumed {change change' : ReservationChange} {at_ : UTCDateTime}
    {terminal : Prop} [Decidable terminal] {reason : String}
    (h : releaseSurplus change at_ terminal reason = .success change') :
    change'.consumed = change.consumed := by
  unfold releaseSurplus at h
  split at h
  · obtain ⟨extra, -, h⟩ := Attempt.bind_eq_success.mp h
    cases h
    rfl
  · cases h
    rfl

theorem new_fill_filledBy (h : execute policy request = .success o) {f : Fill}
    (hf : f ∈ o.receipt.fills) (hnew : f ∉ request.priorFills) :
    FilledBy policy request o f := by
  obtain ⟨-, events, latest, fills, change, hexit, ho⟩ := execute_exit h
  obtain ⟨-, -, -, -, hfills, -, -, hconsumed, -⟩ := outcome_eq_success ho
  rw [hfills] at hf
  cases hexit with
  | rejected refused appended released => exact absurd hf List.not_mem_nil
  | pending supported untradable opened => exact absurd hf hnew
  | expired supported untradable opened appended released => exact absurd hf hnew
  | filled opened step kept =>
      rw [mem_sorted, List.mem_append, List.mem_singleton] at hf
      cases hf.resolve_left hnew
      exact ⟨_, _, _, _, _, _, step, hconsumed⟩
  | cancelled opened step immediate incomplete appended surplus =>
      rw [mem_sorted, List.mem_append, List.mem_singleton] at hf
      cases hf.resolve_left hnew
      exact ⟨_, _, _, _, _, _, step, hconsumed.trans (releaseSurplus_consumed surplus)⟩

/-- An execution that was neither refused nor left without a price fills something new. -/
theorem exists_new_fill (h : execute policy request = .success o)
    (hsupported : AvoidsRejection policy request) {bar : ExecutionBar} {price : Decimal}
    (htradable : nextPrice request policy = some (bar, price)) :
    ∃ f ∈ o.receipt.fills, f ∉ request.priorFills ∧ f.feeCurrency = bar.currency := by
  obtain ⟨-, events, latest, fills, change, hexit, ho⟩ := execute_exit h
  obtain ⟨-, hreceipt, -, -, hreported, -⟩ := outcome_eq_success ho
  -- A receipt's fills have distinct identifiers, so the appended one is not a prior one.
  have hfilled : ∀ {f : Fill} {latest event : OrderEvent} {change : ReservationChange}
      {bar' : ExecutionBar} {price' quantity : Decimal},
      o.receipt.fills = sorted (·.fillId) (request.priorFills ++ [f]) →
      FillStep policy request latest event f change bar' price' quantity →
      ∃ f ∈ o.receipt.fills, f ∉ request.priorFills ∧ f.feeCurrency = bar.currency := by
    intro f latest event change bar' price' quantity hfills step
    have hbar : bar' = bar := by
      have hstep := step.tradable
      rw [htradable] at hstep
      cases hstep
      rfl
    have hcurrency : f.feeCurrency = bar'.currency := by
      rw [(fill_eq_success.mp step.built).1]
      rfl
    have hids : (((request.priorFills ++ [f]).map (·.fillId))).Nodup := by
      have hsorted := hreceipt.fills_sorted
      rw [hfills] at hsorted
      exact ((sorted_perm _ _).map _).nodup_iff.mp hsorted.2
    have hnew : f ∉ request.priorFills := by
      intro hprior
      rw [List.map_append, List.nodup_append] at hids
      exact hids.2.2 _ (List.mem_map_of_mem hprior) _ (by simp) rfl
    refine ⟨f, ?_, hnew, ?_⟩
    · rw [hfills, mem_sorted]
      exact List.mem_append_right _ (List.mem_singleton_self _)
    · rw [hcurrency, hbar]
  cases hexit with
  | rejected refused appended released => exact absurd hsupported refused
  | pending supported untradable opened => rw [untradable] at htradable; cases htradable
  | expired supported untradable opened appended released =>
      rw [untradable] at htradable
      cases htradable
  | filled opened step kept => exact hfilled hreported step
  | cancelled opened step immediate incomplete appended surplus => exact hfilled hreported step

/-! ## The currency -/

/-- The fill is in the reserved currency, and a journal made from it credits no other cash. -/
def PaysReserved (reservation : AccountReservation) (f : Fill) : Prop :=
  f.feeCurrency = reservation.commodity ∧
    ∀ projection policy t, buildFillJournal f projection policy = .success t →
      ∀ p ∈ t.postings, ∀ currency, p.ledgerAccount = .assetCash currency →
        currency = reservation.commodity

theorem paysReserved_iff {reservation : AccountReservation} {f : Fill} :
    PaysReserved reservation f ↔ f.feeCurrency = reservation.commodity := by
  refine ⟨And.left, fun hcurrency => ⟨hcurrency, ?_⟩⟩
  intro projection policy t ht p hp currency haccount
  obtain ⟨values, hbuilt⟩ := buildFillJournal_built ht
  rw [← hcurrency]
  exact hbuilt.pays hp haccount

/-- The bar that would fill the order is in the reserved currency. -/
def BarPaysReserved (policy : PaperExecutionPolicy) (request : PaperExecutionRequest) : Prop :=
  AvoidsRejection policy request → ∀ bar price, nextPrice request policy = some (bar, price) →
    bar.currency = request.reservation.commodity

/-- The broker never compares the bar's currency with the reservation, so a cash reservation pays
in its own currency exactly when the bar that fills the order happens to be in it. -/
theorem fills_pay_reserved_iff (policy : PaperExecutionPolicy) (request : PaperExecutionRequest)
    (o : PaperExecutionOutcome) (h : execute policy request = .success o) :
    (∀ f ∈ o.receipt.fills, f ∉ request.priorFills → PaysReserved request.reservation f) ↔
      BarPaysReserved policy request := by
  constructor
  · intro hpays hsupported bar price htradable
    obtain ⟨f, hf, hnew, hcurrency⟩ := exists_new_fill h hsupported htradable
    rw [← hcurrency]
    exact (hpays f hf hnew).1
  · intro hbar f hf hnew
    obtain ⟨latest, event, change, bar, price, quantity, step, -⟩ := new_fill_filledBy h hf hnew
    rw [(fill_eq_success.mp step.built).1]
    exact paysReserved_iff.mpr (hbar step.supported bar price step.tradable)

end

section Concrete

open scoped PythonArithmetic CodeHashing

def Scenario.euroRequest : PaperExecutionRequest :=
  Scenario.request {} {} [{ Scenario.bar {} with currency := "EUR" }] 50

/-- The ledger of an account that holds nothing yet. -/
def Scenario.emptyLedger : LedgerProjection :=
  { accountId := "paper"
    openingSnapshotHash := 1
    ledgerSequence := 0
    ledgerHash := none
    lastOccurredAt := 0
    balances := []
    unvaluedInstrumentIds := [] }

theorem fills_pay_reserved_euro : ∃ o,
    execute Scenario.policy Scenario.euroRequest = .success o ∧
      ((∀ f ∈ o.receipt.fills, f ∉ Scenario.euroRequest.priorFills →
          PaysReserved Scenario.euroRequest.reservation f) ↔
        BarPaysReserved Scenario.policy Scenario.euroRequest) := by
  have hsuccess : (execute Scenario.policy Scenario.euroRequest).Succeeds := by decide +kernel
  exact hsuccess.imp fun o ho => ⟨ho, fills_pay_reserved_iff _ _ o ho⟩

/-- The order reserved dollars and its fill is posted to euro cash. -/
theorem euro_fill_of_dollars : Scenario.euroRequest.Valid ∧
    Scenario.euroRequest.reservation.kind = .cash ∧
    Scenario.euroRequest.reservation.commodity = "USD" ∧
    (execute Scenario.policy Scenario.euroRequest).SucceedsWith fun o =>
      ∃ f ∈ o.receipt.fills, f ∉ Scenario.euroRequest.priorFills ∧ f.feeCurrency = "EUR" ∧
        (buildFillJournal f Scenario.emptyLedger ⟨"1.0.0"⟩).SucceedsWith fun t =>
          ∃ p ∈ t.postings, p.ledgerAccount = .assetCash "EUR" ∧ p.side = .credit := by
  refine ⟨?_, ?_, ?_, ?_⟩ <;> decide +kernel

end Concrete

/-! ## The amount -/

section

variable [Arithmetic] [Hashing] {policy : PaperExecutionPolicy} {request : PaperExecutionRequest}
  {o : PaperExecutionOutcome}

theorem FillStep.consumed {latest event : OrderEvent} {f : Fill} {change : ReservationChange}
    {bar : ExecutionBar} {price quantity : Decimal} (hr : request.Valid)
    (step : FillStep policy request latest event f change bar price quantity) :
    change.consumed =
        consumedAmount request.reservation quantity price (fee quantity price policy) ∧
      IsQuantized change.consumed request.reservation.quantum ∧
      change.consumed ≤ request.reservation.remainingAmount := by
  obtain ⟨m, hm, hsurplus⟩ := Attempt.bind_eq_success.mp step.held
  rw [orRaise_eq_success] at hm
  obtain ⟨-, hamount, hle, -⟩ := (AccountReservation.consume_eq_success hr.reservation).mp hm
  have hconsumed := releaseSurplus_consumed hsurplus
  exact ⟨hconsumed, hconsumed ▸ hamount.2, hconsumed ▸ hle⟩

omit [Hashing] in
theorem gross_add_fees_le {f : Fill} (hf : f.Valid) (hwritten : f.Written) :
    f.gross + f.fees ≤ ceilTo (kept (f.quantity * f.price) + f.fees) f.feeQuantum := by
  have hq : 0 < f.feeQuantum := hf.fee_quantum_pos
  have hquantized : IsQuantized
      (ceilTo (kept (f.quantity * f.price) + f.fees) f.feeQuantum - f.fees)
      f.feeQuantum := (isQuantized_ceilTo hq).sub hf.fees_quantized
  have hnotional : kept (f.quantity * f.price) ≤
      ceilTo (kept (f.quantity * f.price) + f.fees) f.feeQuantum - f.fees := by
    have hle := le_ceilTo (x := kept (f.quantity * f.price) + f.fees) hq
    linarith
  have hgross : f.gross ≤ ceilTo (kept (f.quantity * f.price) + f.fees) f.feeQuantum - f.fees :=
    halfEvenTo_le (hquantized.trans hwritten) hnotional
  linarith

omit [Hashing] in
theorem Fill.gross_nonneg {f : Fill} (hf : f.Valid) (hwritten : f.Written) : 0 ≤ f.gross :=
  halfEvenTo_nonneg hwritten.pos (kept_nonneg_iff.mpr (mul_pos hf.quantity_pos hf.price_pos).le)

theorem cashTaken_le {f : Fill} {projection : LedgerProjection} {policy : LedgerPostingPolicy}
    {t : JournalTransaction} (hf : f.Valid) (hwritten : f.Written)
    (h : buildFillJournal f projection policy = .success t) :
    t.cashTaken ≤ kept (f.gross + f.fees) := by
  obtain ⟨values, hbuilt⟩ := buildFillJournal_built h
  have hgross := Fill.gross_nonneg hf hwritten
  rw [hbuilt.cashTaken_eq]
  by_cases hside : f.side = .buy
  · rw [if_pos hside]
  · rw [if_neg hside, ← kept_neg]
    exact kept_mono (by linarith)

/-- The notional and the fees of a fill are not rounded down when the broker adds them up, and the
quanta that they make are not rounded down to a whole number. -/
def Fill.RoundsUp (f : Fill) : Prop :=
  kept (f.quantity * f.price) + f.fees ≤ kept (kept (f.quantity * f.price) + f.fees) ∧
    kept (kept (f.quantity * f.price) + f.fees) / f.feeQuantum ≤
      ⌈kept (kept (kept (f.quantity * f.price) + f.fees) / f.feeQuantum)⌉

instance (f : Fill) : Decidable f.RoundsUp := inferInstanceAs (Decidable (_ ∧ _))

omit [Hashing] in
theorem Fill.RoundsUp.le_ceilQuantum {f : Fill} (hf : f.Valid) (h : f.RoundsUp) :
    kept (f.quantity * f.price) + f.fees ≤
      ceilQuantum (kept (kept (f.quantity * f.price) + f.fees)) f.feeQuantum := by
  have hquanta := (div_le_iff₀ hf.fee_quantum_pos).mp h.2
  have hmono := kept_mono hquanta
  rw [kept_kept] at hmono
  exact h.1.trans hmono

/-- Where adding up rounds nothing down, the ledger takes no more cash for a fill than the broker
consumed of its reservation, and the broker never consumes more than was held. -/
theorem cashTaken_le_consumed (policy : PaperExecutionPolicy) (request : PaperExecutionRequest)
    (o : PaperExecutionOutcome) (f : Fill) (projection : LedgerProjection)
    (posting : LedgerPostingPolicy) (t : JournalTransaction) (hr : request.Valid)
    (hcash : request.reservation.kind = .cash) (h : execute policy request = .success o)
    (hf : f ∈ o.receipt.fills) (hnew : f ∉ request.priorFills)
    (hquantum : f.feeQuantum = request.reservation.quantum) (hwritten : f.Written)
    (hrounds : f.RoundsUp) (ht : buildFillJournal f projection posting = .success t) :
    t.cashTaken ≤ o.reservationConsumed ∧
      o.reservationConsumed ≤ request.reservation.remainingAmount := by
  obtain ⟨latest, event, change, bar, price, quantity, step, hconsumed⟩ :=
    new_fill_filledBy h hf hnew
  obtain ⟨hfill, hvalid, -⟩ := fill_eq_success.mp step.built
  obtain ⟨hamount, hquantized, hle⟩ := step.consumed hr
  refine ⟨?_, hconsumed ▸ hle⟩
  rw [hconsumed]
  rw [← hquantum] at hquantized
  have hceil : change.consumed =
      ceilQuantum (kept (kept (f.quantity * f.price) + f.fees)) f.feeQuantum := by
    rw [hamount, hquantum, hfill]
    simp only [consumedAmount, hcash, paperFill]
  have hkept : kept change.consumed = change.consumed := by
    rw [hceil]
    exact kept_kept _
  have hsum : kept (f.quantity * f.price) + f.fees ≤ change.consumed :=
    hceil ▸ hrounds.le_ceilQuantum hvalid
  have hgross : f.gross + f.fees ≤ change.consumed :=
    (gross_add_fees_le hvalid hwritten).trans (ceilTo_le hquantized hsum)
  calc t.cashTaken ≤ kept (f.gross + f.fees) := cashTaken_le hvalid hwritten ht
    _ ≤ kept change.consumed := kept_mono hgross
    _ = change.consumed := hkept

end

namespace Scenario

open scoped PythonArithmetic CodeHashing

theorem cashTaken_le_consumed_thin : ∃ o f t,
    execute policy thinRequest = .success o ∧
      buildFillJournal f emptyLedger ⟨"1.0.0"⟩ = .success t ∧
      t.cashTaken ≤ o.reservationConsumed ∧
      o.reservationConsumed ≤ thinRequest.reservation.remainingAmount := by
  have hvalid : thinRequest.Valid := by decide +kernel
  have hsuccess : (execute policy thinRequest).SucceedsWith fun o =>
      ∃ f ∈ o.receipt.fills, f ∉ thinRequest.priorFills ∧
        f.feeQuantum = thinRequest.reservation.quantum ∧ f.Written ∧ f.RoundsUp ∧
        (buildFillJournal f emptyLedger ⟨"1.0.0"⟩).Succeeds := by decide +kernel
  obtain ⟨o, ho, f, hf, hnew, hquantum, hwritten, hrounds, t, ht⟩ := hsuccess
  exact ⟨o, f, t, ho, ht, cashTaken_le_consumed _ _ o f _ _ t hvalid (by decide +kernel) ho hf hnew
    hquantum hwritten hrounds ht⟩

def wideFee : Decimal := 50000000000000000000000000 + 1 / 100

def wideFeePolicy : PaperExecutionPolicy :=
  { policy with halfSpreadBps := 0, minimumFee := wideFee, feeQuantum := 1 / 100,
                feePlace := 1 / 100 }

/-- One unit at one and a half cents. -/
def wideFeeRequest : PaperExecutionRequest :=
  let request := request {} { amount := 60000000000000000000000000, quantity := 1 }
    [{ bar {} with open_ := 3 / 200, high := 3 / 200, low := 3 / 200, close := 3 / 200,
                   priceQuantum := 1 / 200 }] 50
  { request with reservation := { request.reservation with quantum := 1 / 100 } }

/-- The broker adds the fee to one and a half cents and rounds down; the ledger rounds the one and a
half cents up before. -/
theorem cash_exceeds_consumed : wideFeePolicy.Valid ∧ wideFeeRequest.Valid ∧
    wideFeeRequest.reservation.kind = .cash ∧
    (execute wideFeePolicy wideFeeRequest).SucceedsWith fun o =>
      ∃ f ∈ o.receipt.fills, f ∉ wideFeeRequest.priorFills ∧
        f.feeCurrency = wideFeeRequest.reservation.commodity ∧
        f.feeQuantum = wideFeeRequest.reservation.quantum ∧
        (buildFillJournal f emptyLedger ⟨"1.0.0"⟩).SucceedsWith fun t =>
          o.reservationConsumed < t.cashTaken := by
  refine ⟨?_, ?_, ?_, ?_⟩ <;> decide +kernel

end Scenario

end StonksPaper
