import Mathlib.Algebra.Order.BigOperators.Group.List
import StonksPaper.Domain.Orders

/-!
# Fills and execution receipts

`fills.py`. A receipt shows the order's latest event and all of its fills.
-/

namespace StonksPaper

open Chain

def hexDigits (n : ℕ) : ℕ → List Char
  | 0 => []
  | k + 1 => hexDigits (n / 16) k ++ [Nat.digitChar (n % 16)]

theorem hexDigits_length (n k : ℕ) : (hexDigits n k).length = k := by
  induction k generalizing n with
  | zero => rfl
  | succ k ih => simp [hexDigits, ih]

def hexDigest (hash : Sha256) : String := String.ofList (hexDigits hash 64)

@[simp] theorem hexDigest_length (hash : Sha256) : (hexDigest hash).length = 64 := by
  simp [hexDigest, hexDigits_length]

/-- `feePlace` is the place of the last digit with which `feeQuantum` is written: `1.00` and `1` are
one quantum with two places, and `quantize` rounds to the place. -/
structure Fill where
  fillId : UUID
  commandId : UUID
  orderIntentId : UUID
  accountId : AccountId
  instrumentId : UUID
  side : OrderSide
  quantity : Decimal
  quantityQuantum : Decimal
  price : Decimal
  priceQuantum : Decimal
  feeCurrency : Currency
  fees : Decimal
  feeQuantum : Decimal
  feePlace : Decimal := Quantum.lastPlace feeQuantum
  slippage : Decimal
  occurredAt : UTCDateTime
  simulatorRef : Option String
  externalRef : Option String
deriving DecidableEq

instance : Dump Fill :=
  ⟨fun f => .record "Fill"
    [dump f.fillId, dump f.commandId, dump f.orderIntentId, dump f.accountId, dump f.instrumentId,
      dump f.side, dump f.quantity, dump f.quantityQuantum, dump f.price, dump f.priceQuantum,
      dump f.feeCurrency, dump f.fees, dump f.feeQuantum, dump f.slippage, dump f.occurredAt,
      dump f.simulatorRef, dump f.externalRef]⟩

def Fill.validate (self : Fill) : Call Unit := do
  nonEmptyString self.accountId
  positiveDecimal self.quantity
  positiveDecimal self.quantityQuantum
  positiveDecimal self.price
  positiveDecimal self.priceQuantum
  currencyCode self.feeCurrency
  nonNegativeDecimal self.fees
  positiveDecimal self.feeQuantum
  raiseUnless (∀ text ∈ self.simulatorRef, text.length ≤ 512)
    "String should have at most 512 characters"
  raiseUnless (∀ text ∈ self.externalRef, text.length ≤ 512)
    "String should have at most 512 characters"
  raiseUnless (IsQuantized self.quantity self.quantityQuantum)
    "fill quantity must match instrument quantum"
  raiseUnless (IsQuantized self.price self.priceQuantum) "fill price must match price quantum"
  raiseUnless (IsQuantized self.fees self.feeQuantum)
    "fill fees must match fee currency quantum"
  raiseUnless (IsQuantized self.slippage self.priceQuantum)
    "fill slippage must match price quantum"

/-- What the fields of a fill ask of the numbers that were computed. -/
def Fill.InBounds [Arithmetic] (self : Fill) : Prop :=
  Takes self.quantity self.quantityQuantum ∧ Takes self.price self.priceQuantum ∧
    Takes self.fees self.feeQuantum ∧ Takes self.slippage self.priceQuantum

instance [Arithmetic] (self : Fill) : Decidable self.InBounds := inferInstanceAs (Decidable (_ ∧ _))

def Fill.Written (self : Fill) : Prop := IsQuantized self.feeQuantum self.feePlace

instance (self : Fill) : Decidable self.Written := inferInstanceAs (Decidable (IsQuantized _ _))

/-- What the validator of a fill guarantees. -/
structure Fill.Valid (f : Fill) : Prop where
  account_nonempty : f.accountId ≠ ""
  quantity_pos : 0 < f.quantity
  quantity_quantum_pos : 0 < f.quantityQuantum
  price_pos : 0 < f.price
  price_quantum_pos : 0 < f.priceQuantum
  currency : isCurrency f.feeCurrency = true
  fees_nonneg : 0 ≤ f.fees
  fee_quantum_pos : 0 < f.feeQuantum
  simulator_short : ∀ text ∈ f.simulatorRef, text.length ≤ 512
  external_short : ∀ text ∈ f.externalRef, text.length ≤ 512
  quantity_quantized : IsQuantized f.quantity f.quantityQuantum
  price_quantized : IsQuantized f.price f.priceQuantum
  fees_quantized : IsQuantized f.fees f.feeQuantum
  slippage_quantized : IsQuantized f.slippage f.priceQuantum

theorem Fill.validate_iff {f : Fill} : f.validate = .success () ↔ f.Valid := by
  simp only [validate, Attempt.bind_eq_success, nonEmptyString_eq_success,
    positiveDecimal_eq_success, currencyCode_eq_success, nonNegativeDecimal_eq_success,
    raiseUnless_eq_success]
  constructor
  · rintro ⟨_, h1, _, h2, _, h3, _, h4, _, h5, _, h6, _, h7, _, h8, _, h9, _, h10, _, h11, _, h12,
      _, h13, h14⟩
    exact ⟨h1, h2, h3, h4, h5, h6, h7, h8, h9, h10, h11, h12, h13, h14⟩
  · rintro ⟨h1, h2, h3, h4, h5, h6, h7, h8, h9, h10, h11, h12, h13, h14⟩
    exact ⟨(), h1, (), h2, (), h3, (), h4, (), h5, (), h6, (), h7, (), h8, (), h9, (), h10, (),
      h11, (), h12, (), h13, h14⟩

structure ExecutionReceipt where
  receiptId : UUID
  commandId : UUID
  orderIntentId : UUID
  intentHash : Sha256
  accountId : AccountId
  instrumentId : UUID
  side : OrderSide
  commandQuantity : Decimal
  quantityQuantum : Decimal
  status : OrderStatus
  event : OrderEvent
  fills : List Fill
  filledQuantity : Decimal
  remainingQuantity : Decimal
  occurredAt : UTCDateTime
  receiptHash : Sha256
deriving DecidableEq

/-- The fields that the receipt hash covers. -/
def ExecutionReceipt.payload (self : ExecutionReceipt) : List Payload :=
  [dump self.receiptId, dump self.commandId, dump self.orderIntentId, dump self.intentHash,
    dump self.accountId, dump self.instrumentId, dump self.side, dump self.commandQuantity,
    dump self.quantityQuantum, dump self.status, dump self.event, dump self.fills,
    dump self.filledQuantity, dump self.remainingQuantity, dump self.occurredAt]

instance : Dump ExecutionReceipt :=
  ⟨fun r => .record "ExecutionReceipt" (r.payload ++ [dump r.receiptHash])⟩

def ExecutionReceipt.expectedReceiptHash [Hashing] (self : ExecutionReceipt) : Sha256 :=
  stablePayloadHash (.record "ExecutionReceipt" self.payload)

def ExecutionReceipt.fillMatches (self : ExecutionReceipt) (fill : Fill) : Prop :=
  fill.commandId = self.commandId ∧ fill.orderIntentId = self.orderIntentId ∧
    fill.accountId = self.accountId ∧ fill.instrumentId = self.instrumentId ∧
    fill.side = self.side ∧ fill.quantityQuantum = self.quantityQuantum

instance (self : ExecutionReceipt) (fill : Fill) : Decidable (self.fillMatches fill) :=
  inferInstanceAs (Decidable (_ ∧ _))

def totalQuantity (fills : List Fill) : Decimal := (fills.map (·.quantity)).sum

/-- `sum((item.quantity for item in fills), ZERO)`. -/
def summedQuantity [Arithmetic] (fills : List Fill) : Decimal :=
  Arithmetic.context.sum (fills.map (·.quantity))

section

open scoped ExactArithmetic

@[simp] theorem summedQuantity_exact (fills : List Fill) :
    summedQuantity fills = totalQuantity fills := Context.sum_exact _

end

theorem fills_eq_nil [Arithmetic] {fills : List Fill} (hfills : ∀ f ∈ fills, 0 < f.quantity)
    (htotal : summedQuantity fills = 0) : fills = [] := by
  cases fills with
  | nil => rfl
  | cons f fs =>
      have hhead : 0 < kept (0 + f.quantity) := by
        rw [zero_add, kept_pos_iff]
        exact hfills f (List.mem_cons_self ..)
      have hrest : ∀ x ∈ fs.map (·.quantity), 0 ≤ x := by
        simpa using fun g hg => (hfills g (List.mem_cons_of_mem _ hg)).le
      have htail : kept (0 + f.quantity) ≤ summedQuantity (f :: fs) :=
        Context.le_foldl_round hrest (Context.round_round _)
      linarith

def ExecutionReceipt.validate [Arithmetic] [Hashing] (self : ExecutionReceipt) : Call Unit := do
  nonEmptyString self.accountId
  positiveDecimal self.commandQuantity
  positiveDecimal self.quantityQuantum
  maxLength tupleLimit self.fills.length
  nonNegativeDecimal self.filledQuantity
  nonNegativeDecimal self.remainingQuantity
  raiseUnless (self.orderIntentId = self.event.orderIntentId ∧ self.status = self.event.toStatus ∧
    self.filledQuantity = self.event.cumulativeFilledQuantity ∧
    self.remainingQuantity = self.event.remainingQuantity)
    "execution receipt does not match order event"
  raiseUnless (kept (self.filledQuantity + self.remainingQuantity) = self.commandQuantity)
    "receipt quantities must sum to command quantity"
  raiseUnless (IsQuantized self.commandQuantity self.quantityQuantum ∧
    IsQuantized self.filledQuantity self.quantityQuantum ∧
    IsQuantized self.remainingQuantity self.quantityQuantum)
    "receipt quantities must match instrument quantum"
  raiseUnless (self.event.occurredAt ≤ self.occurredAt) "receipt cannot precede order event"
  raiseUnless (SortedUnique (self.fills.map (·.fillId))) "fills must be unique and stably sorted"
  raiseUnless (∀ fill ∈ self.fills, self.fillMatches fill) "fill does not match receipt identity"
  raiseUnless (∀ fill ∈ self.fills, fill.occurredAt ≤ self.occurredAt)
    "fill cannot occur after receipt"
  raiseUnless (summedQuantity self.fills = self.filledQuantity)
    "fill quantities must equal cumulative filled quantity"
  raiseUnless (self.status = .filled → self.fills ≠ []) "filled receipt requires at least one fill"
  raiseUnless (self.receiptHash = self.expectedReceiptHash)
    "execution receipt hash does not match payload"

/-- What the validator of a receipt guarantees. -/
structure ExecutionReceipt.Valid [Arithmetic] [Hashing] (r : ExecutionReceipt) : Prop where
  account_nonempty : r.accountId ≠ ""
  quantity_pos : 0 < r.commandQuantity
  quantum_pos : 0 < r.quantityQuantum
  fills_length : r.fills.length ≤ tupleLimit
  filled_nonneg : 0 ≤ r.filledQuantity
  remaining_nonneg : 0 ≤ r.remainingQuantity
  event_intent : r.orderIntentId = r.event.orderIntentId
  event_status : r.status = r.event.toStatus
  event_filled : r.filledQuantity = r.event.cumulativeFilledQuantity
  event_remaining : r.remainingQuantity = r.event.remainingQuantity
  quantities : kept (r.filledQuantity + r.remainingQuantity) = r.commandQuantity
  quantized : IsQuantized r.commandQuantity r.quantityQuantum ∧
    IsQuantized r.filledQuantity r.quantityQuantum ∧
    IsQuantized r.remainingQuantity r.quantityQuantum
  event_time : r.event.occurredAt ≤ r.occurredAt
  fills_sorted : SortedUnique (r.fills.map (·.fillId))
  fills_match : ∀ fill ∈ r.fills, r.fillMatches fill
  fills_time : ∀ fill ∈ r.fills, fill.occurredAt ≤ r.occurredAt
  fills_total : summedQuantity r.fills = r.filledQuantity
  filled_fills : r.status = .filled → r.fills ≠ []
  hash : r.receiptHash = r.expectedReceiptHash

theorem ExecutionReceipt.validate_iff [Arithmetic] [Hashing] {r : ExecutionReceipt} :
    r.validate = .success () ↔ r.Valid := by
  simp only [validate, Attempt.bind_eq_success, nonEmptyString_eq_success,
    positiveDecimal_eq_success, nonNegativeDecimal_eq_success, maxLength_eq_success,
    raiseUnless_eq_success]
  constructor
  · rintro ⟨_, h1, _, h2, _, h3, _, h4, _, h5, _, h6, _, ⟨h7, h8, h9, h10⟩, _, h11, _, h12, _, h13,
      _, h14, _, h15, _, h16, _, h17, _, h18, h19⟩
    exact ⟨h1, h2, h3, h4, h5, h6, h7, h8, h9, h10, h11, h12, h13, h14, h15, h16, h17, h18, h19⟩
  · rintro ⟨h1, h2, h3, h4, h5, h6, h7, h8, h9, h10, h11, h12, h13, h14, h15, h16, h17, h18, h19⟩
    exact ⟨(), h1, (), h2, (), h3, (), h4, (), h5, (), h6, (), ⟨h7, h8, h9, h10⟩, (), h11, (), h12,
      (), h13, (), h14, (), h15, (), h16, (), h17, (), h18, h19⟩

section

variable [Hashing]

/-- The receipt that `ExecutionReceipt.create` builds, before its validators run. -/
def executionReceipt (receiptId commandId : UUID) (intent : OrderIntent) (event : OrderEvent)
    (fills : List Fill) (occurredAt : UTCDateTime) : ExecutionReceipt :=
  let provisional : ExecutionReceipt :=
    { receiptId, commandId, event, fills, occurredAt
      orderIntentId := intent.intentId
      intentHash := intent.intentHash
      accountId := intent.accountId
      instrumentId := intent.instrumentId
      side := intent.side
      commandQuantity := intent.quantity
      quantityQuantum := intent.quantityQuantum
      status := event.toStatus
      filledQuantity := event.cumulativeFilledQuantity
      remainingQuantity := event.remainingQuantity
      receiptHash := 0 }
  { provisional with receiptHash := provisional.expectedReceiptHash }

def ExecutionReceipt.create [Arithmetic] (receiptId commandId : UUID) (intent : OrderIntent)
    (event : OrderEvent) (fills : List Fill) (occurredAt : UTCDateTime) : Call ExecutionReceipt :=
  modelValidate ExecutionReceipt.validate <|
    executionReceipt receiptId commandId intent event fills occurredAt

end

end StonksPaper
