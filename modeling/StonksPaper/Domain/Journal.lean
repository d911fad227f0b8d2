import Mathlib.Data.Prod.Lex
import StonksPaper.Domain.Fills

/-!
# The double-entry journal and the ledger projection

`journal.py` and `ledger.py`. The canonical ledger accounts are constructors instead of texts, in
the alphabetical order of their texts, so every one of them matches the pattern of its field.
-/

namespace StonksPaper

open Chain

/-- `asset:cash:USD`, `inventory:value:<instrument>:USD` and the other canonical accounts. -/
inductive LedgerAccount where
  | assetCash (currency : Currency)
  | clearingCash (currency : Currency)
  | clearingUnits (instrument : UUID)
  | feeExecution (currency : Currency)
  | inventoryUnits (instrument : UUID)
  | inventoryValue (instrument : UUID) (currency : Currency)
  | pnlRealized (currency : Currency)
deriving DecidableEq

/-- What a ledger account counts: a currency, or the units of an instrument. -/
inductive Commodity where
  | currency (code : Currency)
  | units (instrument : UUID)
deriving DecidableEq

abbrev LedgerKey := LedgerAccount × Commodity

instance : LawfulBEq LedgerKey := inferInstance

/-- The position of an account in the alphabetical order of the texts. -/
def LedgerAccount.sortKey : LedgerAccount → ℕ ×ₗ (UUID ×ₗ Currency)
  | assetCash c => toLex (0, toLex (0, c))
  | clearingCash c => toLex (1, toLex (0, c))
  | clearingUnits i => toLex (2, toLex (i, ""))
  | feeExecution c => toLex (3, toLex (0, c))
  | inventoryUnits i => toLex (4, toLex (i, ""))
  | inventoryValue i c => toLex (5, toLex (i, c))
  | pnlRealized c => toLex (6, toLex (0, c))

def Commodity.sortKey : Commodity → ℕ ×ₗ (UUID ×ₗ Currency)
  | units i => toLex (0, toLex (i, ""))
  | currency c => toLex (1, toLex (0, c))

def LedgerKey.sortKey (key : LedgerKey) :
    (ℕ ×ₗ (UUID ×ₗ Currency)) ×ₗ (ℕ ×ₗ (UUID ×ₗ Currency)) :=
  toLex (key.1.sortKey, key.2.sortKey)

theorem LedgerAccount.sortKey_injective : Function.Injective LedgerAccount.sortKey := by
  intro a b h
  cases a <;> cases b <;> simp_all [sortKey, Prod.ext_iff]

theorem Commodity.sortKey_injective : Function.Injective Commodity.sortKey := by
  intro a b h
  cases a <;> cases b <;> simp_all [sortKey, Prod.ext_iff]

theorem LedgerKey.sortKey_injective : Function.Injective LedgerKey.sortKey := by
  intro a b h
  obtain ⟨haccount, hcommodity⟩ := Prod.ext_iff.mp (toLex_inj.mp h)
  exact Prod.ext (LedgerAccount.sortKey_injective haccount)
    (Commodity.sortKey_injective hcommodity)

inductive JournalSide where
  | debit
  | credit
deriving DecidableEq, Repr

instance : Dump LedgerAccount :=
  ⟨fun a => .record "LedgerAccount" [dump a.sortKey.1, dump a.sortKey.2.1, dump a.sortKey.2.2]⟩
instance : Dump Commodity :=
  ⟨fun c => .record "Commodity" [dump c.sortKey.1, dump c.sortKey.2.1, dump c.sortKey.2.2]⟩
instance : Dump JournalSide := ⟨fun s => .int (s.ctorIdx : ℕ)⟩

/-- `str(identifier)`. -/
def uuidText (identifier : UUID) : String :=
  let digits := hexDigits identifier 32
  String.ofList <| digits.take 8 ++ '-' :: (digits.drop 8).take 4 ++
    '-' :: (digits.drop 12).take 4 ++
    '-' :: (digits.drop 16).take 4 ++ '-' :: digits.drop 20

@[simp] theorem uuidText_length (identifier : UUID) : (uuidText identifier).length = 36 := by
  simp only [uuidText, String.length_ofList, List.length_append, List.length_cons,
    List.length_take, List.length_drop, hexDigits_length]
  rfl

/-! ## Postings and transactions -/

structure JournalPosting where
  postingId : UUID
  ledgerAccount : LedgerAccount
  commodity : Commodity
  side : JournalSide
  amount : Decimal
  quantum : Decimal
  memo : Option String
deriving DecidableEq

instance : Dump JournalPosting :=
  ⟨fun p => .record "JournalPosting"
    [dump p.postingId, dump p.ledgerAccount, dump p.commodity, dump p.side, dump p.amount,
      dump p.quantum, dump p.memo]⟩

def JournalPosting.key (self : JournalPosting) : LedgerKey := (self.ledgerAccount, self.commodity)

def JournalPosting.signedAmount [Arithmetic] (self : JournalPosting) : Decimal :=
  if self.side = .debit then self.amount else kept (-self.amount)

def JournalPosting.validate [Arithmetic] (self : JournalPosting) : Call Unit := do
  positiveDecimal self.amount
  positiveDecimal self.quantum
  raiseUnless (∀ text ∈ self.memo, text.length ≤ 512) "String should have at most 512 characters"
  raiseUnless (IsQuantized self.amount self.quantum ∧ Takes self.amount self.quantum)
    "posting amount must already match commodity quantum"

theorem JournalPosting.validate_iff [Arithmetic] {p : JournalPosting} :
    p.validate = .success () ↔ 0 < p.amount ∧ 0 < p.quantum ∧
      (∀ text ∈ p.memo, text.length ≤ 512) ∧ IsQuantized p.amount p.quantum ∧
      Takes p.amount p.quantum := by
  simp only [validate, Attempt.bind_eq_success, positiveDecimal_eq_success,
    raiseUnless_eq_success]
  constructor
  · rintro ⟨_, hamount, _, hquantum, _, hmemo, hquantized⟩
    exact ⟨hamount, hquantum, hmemo, hquantized⟩
  · rintro ⟨hamount, hquantum, hmemo, hquantized⟩
    exact ⟨(), hamount, (), hquantum, (), hmemo, hquantized⟩

/-- Every commodity's debits equal its credits. -/
def Balanced [Arithmetic] (postings : List JournalPosting) : Prop :=
  ∀ p ∈ postings, Arithmetic.context.sum
    ((postings.filter (·.commodity = p.commodity)).map (·.signedAmount)) = 0

instance [Arithmetic] (postings : List JournalPosting) : Decidable (Balanced postings) :=
  inferInstanceAs (Decidable (∀ _ ∈ _, _))

structure JournalTransaction where
  transactionId : UUID
  accountId : AccountId
  sequence : ℕ
  occurredAt : UTCDateTime
  previousHash : Option Sha256
  sourceOrderIntentId : UUID
  sourceFillId : UUID
  postings : List JournalPosting
  transactionHash : Sha256
deriving DecidableEq

def JournalTransaction.link : Link JournalTransaction Sha256 where
  sequence := (·.sequence)
  previous := (·.previousHash)
  hash := (·.transactionHash)

def JournalTransaction.expectedTransactionHash [Hashing] (self : JournalTransaction) : Sha256 :=
  stablePayloadHash <| .record "JournalTransaction"
    [dump self.transactionId, dump self.accountId, dump self.sequence, dump self.occurredAt,
      dump self.previousHash, dump self.sourceOrderIntentId, dump self.sourceFillId,
      dump self.postings]

def JournalTransaction.isBalanced [Arithmetic] (self : JournalTransaction) : Prop :=
  self.postings ≠ [] ∧ Balanced self.postings

instance [Arithmetic] (self : JournalTransaction) : Decidable self.isBalanced :=
  inferInstanceAs (Decidable (_ ∧ _))

def JournalTransaction.validate [Arithmetic] [Hashing] (self : JournalTransaction) : Call Unit := do
  nonEmptyString self.accountId
  atLeast 1 self.sequence
  atLeast 2 self.postings.length
  maxLength 10000 self.postings.length
  raiseUnless (self.sequence = 1 ↔ self.previousHash = none)
    "only genesis journal transaction may omit previous hash"
  raiseUnless (SortedUnique (self.postings.map (·.postingId)))
    "journal posting ids must be unique and stably sorted by id"
  raiseUnless (∀ p ∈ self.postings, ∀ q ∈ self.postings, p.commodity = q.commodity →
    p.quantum = q.quantum) "one commodity cannot use mixed quantums"
  raiseUnless (Balanced self.postings) "unbalanced journal commodities"
  raiseUnless (self.transactionHash = self.expectedTransactionHash)
    "journal transaction hash does not match payload"

section

variable [Hashing]

/-- The transaction that `JournalTransaction.create` builds, before its validators run. -/
def journalTransaction (transactionId : UUID) (accountId : AccountId) (sequence : ℕ)
    (occurredAt : UTCDateTime) (previousHash : Option Sha256)
    (sourceOrderIntentId sourceFillId : UUID) (postings : List JournalPosting) :
    JournalTransaction :=
  let provisional : JournalTransaction :=
    { transactionId, accountId, sequence, occurredAt, previousHash, sourceOrderIntentId
      sourceFillId, postings
      transactionHash := 0 }
  { provisional with transactionHash := provisional.expectedTransactionHash }

def JournalTransaction.create [Arithmetic] (transactionId : UUID) (accountId : AccountId)
    (sequence : ℕ)
    (occurredAt : UTCDateTime) (previousHash : Option Sha256)
    (sourceOrderIntentId sourceFillId : UUID) (postings : List JournalPosting) :
    Call JournalTransaction :=
  modelValidate JournalTransaction.validate <| journalTransaction transactionId accountId sequence
    occurredAt previousHash sourceOrderIntentId sourceFillId postings

end

/-! ## Balances and projections -/

structure LedgerHead where
  accountId : AccountId
  sequence : ℕ
  transactionHash : Option Sha256
deriving DecidableEq

def LedgerHead.validate (self : LedgerHead) : Call Unit := do
  nonEmptyString self.accountId
  raiseUnless (self.sequence = 0 ↔ self.transactionHash = none)
    "only genesis ledger head may omit transaction hash"

structure LedgerAccountBalance where
  ledgerAccount : LedgerAccount
  commodity : Commodity
  quantum : Decimal
  debitTotal : Decimal
  creditTotal : Decimal
deriving DecidableEq

def LedgerAccountBalance.key (self : LedgerAccountBalance) : LedgerKey :=
  (self.ledgerAccount, self.commodity)

def LedgerAccountBalance.sortKey (self : LedgerAccountBalance) :
    (ℕ ×ₗ (UUID ×ₗ Currency)) ×ₗ (ℕ ×ₗ (UUID ×ₗ Currency)) := LedgerKey.sortKey self.key

instance : Dump LedgerAccountBalance :=
  ⟨fun b => .record "LedgerAccountBalance"
    [dump b.ledgerAccount, dump b.commodity, dump b.quantum, dump b.debitTotal,
      dump b.creditTotal]⟩

def LedgerAccountBalance.validate [Arithmetic] (self : LedgerAccountBalance) : Call Unit := do
  positiveDecimal self.quantum
  nonNegativeDecimal self.debitTotal
  nonNegativeDecimal self.creditTotal
  raiseUnless ((IsQuantized self.debitTotal self.quantum ∧ Takes self.debitTotal self.quantum) ∧
    IsQuantized self.creditTotal self.quantum ∧ Takes self.creditTotal self.quantum)
    "ledger totals must match commodity quantum"

def LedgerAccountBalance.balance [Arithmetic] (self : LedgerAccountBalance) : Decimal :=
  kept (self.debitTotal - self.creditTotal)

structure LedgerProjection where
  accountId : AccountId
  openingSnapshotHash : Sha256
  ledgerSequence : ℕ
  ledgerHash : Option Sha256
  lastOccurredAt : UTCDateTime
  balances : List LedgerAccountBalance
  unvaluedInstrumentIds : List UUID
deriving DecidableEq

/-- `projection_hash`, which `create` computes and the validator recomputes. -/
def LedgerProjection.projectionHash [Hashing] (self : LedgerProjection) : Sha256 :=
  stablePayloadHash <| .record "LedgerProjection"
    [dump self.accountId, dump self.openingSnapshotHash, dump self.ledgerSequence,
      dump self.ledgerHash, dump self.lastOccurredAt, dump self.balances,
      dump self.unvaluedInstrumentIds]

def LedgerProjection.validate (self : LedgerProjection) : Call Unit := do
  nonEmptyString self.accountId
  maxLength 1000000 self.balances.length
  maxLength tupleLimit self.unvaluedInstrumentIds.length
  raiseUnless (self.ledgerSequence = 0 ↔ self.ledgerHash = none)
    "only genesis ledger projection may omit hash"
  raiseUnless (SortedUnique (self.balances.map (·.sortKey)))
    "ledger balances must be unique and stably sorted"
  raiseUnless (SortedUnique self.unvaluedInstrumentIds)
    "unvalued instruments must be unique and sorted"

def LedgerProjection.accountBalance [Arithmetic] (self : LedgerProjection) (key : LedgerKey) :
    Decimal :=
  ((self.balances.find? (·.key = key)).map (·.balance)).getD 0

def LedgerProjection.cash [Arithmetic] (self : LedgerProjection) (currency : Currency) : Decimal :=
  self.accountBalance (.assetCash currency, .currency currency)

def LedgerProjection.position [Arithmetic] (self : LedgerProjection) (instrumentId : UUID) :
    Decimal :=
  self.accountBalance (.inventoryUnits instrumentId, .units instrumentId)

def LedgerProjection.inventoryValue [Arithmetic] (self : LedgerProjection) (instrumentId : UUID)
    (currency : Currency) : Decimal :=
  self.accountBalance (.inventoryValue instrumentId currency, .currency currency)

/-- The reconciliation of a replayed ledger with the stored one. -/
structure LedgerReconciliationReport where
  accountId : AccountId
  asOf : UTCDateTime
  ledgerSequence : ℕ
  replayProjectionHash : Sha256
  databaseProjectionHash : Sha256
  matched : Bool
  mismatchReasons : List String
deriving DecidableEq

instance : Dump LedgerReconciliationReport :=
  ⟨fun r => .record "LedgerReconciliationReport"
    [dump r.accountId, dump r.asOf, dump r.ledgerSequence, dump r.replayProjectionHash,
      dump r.databaseProjectionHash, dump r.matched, dump r.mismatchReasons]⟩

def LedgerReconciliationReport.validate (self : LedgerReconciliationReport) : Call Unit := do
  nonEmptyString self.accountId
  raiseUnless (∀ reason ∈ self.mismatchReasons, reason ≠ "")
    "String should have at least 1 character"
  maxLength 1000000 self.mismatchReasons.length
  requireSortedUnique self.mismatchReasons "reconciliation reasons"
  raiseUnless (self.matched = true ↔
      self.replayProjectionHash = self.databaseProjectionHash ∧ self.mismatchReasons = [])
    "reconciliation result is inconsistent"

end StonksPaper
