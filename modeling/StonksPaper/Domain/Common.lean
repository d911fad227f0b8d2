import Mathlib.Data.Rat.Floor
import StonksPaper.Base.Attempt
import StonksPaper.Base.Chain
import StonksPaper.Base.Coding
import StonksPaper.Base.Context

/-!
# Shared primitives of the trading domain

A decimal is a rational number, and `Arithmetic` is the context in which a call computes with
decimals: the 28 digits of the code or exact arithmetic. Instants are microseconds since the epoch,
identities and digests are numbers. SHA-256 and UUIDv5 are the two functions of `Hashing`; nothing
is assumed of them unless a statement says `Hashing.CollisionFree`.
-/

namespace StonksPaper

abbrev Decimal := ℚ
abbrev UTCDateTime := ℤ
abbrev UUID := ℕ
abbrev Sha256 := ℕ
abbrev Currency := String
abbrev AccountId := String

/-- `datetime.max`, in microseconds from 1970. -/
def datetimeMax : UTCDateTime := 253402300799999999

/-! ## Arithmetic -/

/-- The context of `decimal` in which a call computes. -/
class Arithmetic where
  context : Context

namespace PythonArithmetic

/-- The context of the code: 28 digits, half to even. -/
scoped instance arithmetic : Arithmetic := ⟨.significant 28⟩

end PythonArithmetic

namespace ExactArithmetic

scoped instance arithmetic : Arithmetic := ⟨.exact⟩

end ExactArithmetic

def kept [Arithmetic] (x : Decimal) : Decimal := Arithmetic.context.round x

abbrev exactly {α : Sort*} (f : [Arithmetic] → α) : α := @f ExactArithmetic.arithmetic

def IsKept [Arithmetic] (x : Decimal) : Prop := kept x = x

instance [Arithmetic] (x : Decimal) : Decidable (IsKept x) := inferInstanceAs (Decidable (_ = _))

/-- What a field takes of a number that was computed: `_parse_decimal` refuses an adjusted exponent
above 64, and `is_quantized` finds no remainder of more quanta than have 28 digits. -/
def Takes [Arithmetic] (x quantum : Decimal) : Prop :=
  Arithmetic.context.Below (10 ^ 65) x ∧ Arithmetic.context.Holds ⌊x / quantum⌋

instance [Arithmetic] (x quantum : Decimal) : Decidable (Takes x quantum) :=
  inferInstanceAs (Decidable (_ ∧ _))

section

open scoped ExactArithmetic

@[simp] theorem context_exact : Arithmetic.context = .exact := rfl

@[simp] theorem kept_exact (x : Decimal) : kept x = x := rfl

@[simp] theorem isKept_exact (x : Decimal) : IsKept x := rfl

@[simp] theorem takes_exact (x quantum : Decimal) : Takes x quantum := ⟨trivial, trivial⟩

end

section

variable [Arithmetic] {x y : Decimal}

@[simp] theorem kept_zero : kept 0 = 0 := Context.round_zero _

@[simp] theorem kept_one : kept 1 = 1 := Context.round_one _

@[simp] theorem kept_kept (x : Decimal) : kept (kept x) = kept x := Context.round_round x

theorem takes_zero (quantum : Decimal) : Takes 0 quantum := by
  rw [Takes, zero_div, Int.floor_zero]
  exact ⟨Context.below_zero (by norm_num), Context.holds_zero⟩

theorem kept_neg (x : Decimal) : kept (-x) = -kept x := Context.round_neg_eq x

@[simp] theorem kept_nonneg_iff : 0 ≤ kept x ↔ 0 ≤ x := Context.round_nonneg_iff

@[simp] theorem kept_pos_iff : 0 < kept x ↔ 0 < x := Context.round_pos_iff

@[simp] theorem kept_eq_zero : kept x = 0 ↔ x = 0 := Context.round_eq_zero

theorem kept_mono : Monotone (kept : Decimal → Decimal) := Context.round_mono _

end

/-! ## Results and errors -/

inductive ErrorCode where
  | invalidInput
  | configurationInvalid
  | unauthorized
  | forbidden
  | notFound
  | conflict
  | capabilityDenied
  | egressDenied
  | dataUnavailable
  | rateLimited
  | budgetExhausted
  | deadlineExceeded
  | modelOutputInvalid
  | toolFailed
  | payloadTooLarge
  | internalError
deriving DecidableEq, Repr

def ErrorCode.value : ErrorCode → String
  | invalidInput => "invalid_input"
  | configurationInvalid => "configuration_invalid"
  | unauthorized => "unauthorized"
  | forbidden => "forbidden"
  | notFound => "not_found"
  | conflict => "conflict"
  | capabilityDenied => "capability_denied"
  | egressDenied => "egress_denied"
  | dataUnavailable => "data_unavailable"
  | rateLimited => "rate_limited"
  | budgetExhausted => "budget_exhausted"
  | deadlineExceeded => "deadline_exceeded"
  | modelOutputInvalid => "model_output_invalid"
  | toolFailed => "tool_failed"
  | payloadTooLarge => "payload_too_large"
  | internalError => "internal_error"

/-- `Failure(StructuredError(...))`. -/
structure Failure where
  code : ErrorCode
  message : String
  details : List (String × String) := []
deriving DecidableEq

/-- An exception that leaves a call. -/
inductive Exception where
  | valueError (message : String)
  | decimalException (message : String)
  | overflowError (message : String)
  /-- A constraint or a trigger of the database refused a statement. -/
  | databaseError (message : String)
deriving DecidableEq

/-- A Python call of result type `Result[α]`, or one that only raises. -/
abbrev Call (α : Type) := Attempt Failure Exception α

def raiseUnless (c : Prop) [Decidable c] (message : String) : Call Unit :=
  Attempt.require c (.valueError message)

def failUnless (c : Prop) [Decidable c] (code : ErrorCode) (message : String) : Call Unit :=
  Attempt.demand c { code := code, message := message }

@[simp] theorem raiseUnless_eq_success {c : Prop} [Decidable c] {m : String} {u : Unit} :
    raiseUnless c m = .success u ↔ c := Attempt.require_eq_success

@[simp] theorem failUnless_eq_success {c : Prop} [Decidable c] {code : ErrorCode} {m : String}
    {u : Unit} : failUnless c code m = .success u ↔ c := Attempt.demand_eq_success

@[simp] theorem raiseUnless_ne_failure {c : Prop} [Decidable c] {m : String} {f : Failure} :
    raiseUnless c m ≠ .failure f := Attempt.require_ne_failure

@[simp] theorem returns_raiseUnless {c : Prop} [Decidable c] {m : String} :
    (raiseUnless c m).Returns ↔ c := Attempt.returns_require

@[simp] theorem returns_failUnless {c : Prop} [Decidable c] {code : ErrorCode} {m : String} :
    (failUnless c code m).Returns := Attempt.returns_demand

theorem raiseUnless_of {c : Prop} [Decidable c] (h : c) (m : String) :
    raiseUnless c m = .success () := Attempt.require_of h _

theorem failUnless_of {c : Prop} [Decidable c] (h : c) (code : ErrorCode) (m : String) :
    failUnless c code m = .success () := Attempt.demand_of h _

def fail {α : Type} (code : ErrorCode) (message : String) : Call α :=
  .failure { code := code, message := message }

/-- `except ValueError as error: return failure(code, message, reason=str(error))`. -/
def exceptValueError {α : Type} (code : ErrorCode) (message : String) : Call α → Call α :=
  Attempt.absorb fun
    | .valueError reason =>
        some { code := code, message := message, details := [("reason", reason)] }
    | _ => none

@[simp] theorem exceptValueError_eq_success {α : Type} {code : ErrorCode} {m : String}
    {x : Call α} {a : α} : exceptValueError code m x = .success a ↔ x = .success a :=
  Attempt.absorb_eq_success

/-- The only exceptions that leave the call are `ValueError`s. -/
def OnlyValueErrors {α : Type} (x : Call α) : Prop := ∀ e, x = .raised e → ∃ m, e = .valueError m

theorem onlyValueErrors_raiseUnless {c : Prop} [Decidable c] {m : String} :
    OnlyValueErrors (raiseUnless c m) := by
  intro e he
  unfold raiseUnless Attempt.require at he
  split at he
  · cases he
  · cases he
    exact ⟨m, rfl⟩

theorem onlyValueErrors_success {α : Type} {a : α} : OnlyValueErrors (.success a : Call α) := by
  simp [OnlyValueErrors]

theorem OnlyValueErrors.bind {α β : Type} {x : Call α} {f : α → Call β} (hx : OnlyValueErrors x)
    (hf : ∀ a, OnlyValueErrors (f a)) : OnlyValueErrors (x >>= f) := by
  intro e h
  rcases Attempt.bind_eq_raised.mp h with h | ⟨a, -, h⟩
  · exact hx e h
  · exact hf a e h

theorem exceptValueError_returns {α : Type} {code : ErrorCode} {message : String} {x : Call α}
    (hx : OnlyValueErrors x) : (exceptValueError code message x).Returns := by
  cases x with
  | success a => simp [exceptValueError, Attempt.absorb]
  | failure e => simp [exceptValueError, Attempt.absorb]
  | raised e =>
      obtain ⟨m, rfl⟩ := hx e rfl
      simp [exceptValueError, Attempt.absorb]

/-- `_mutation`: a savepoint around an operation; what a validator or the database refuses is a
conflict. -/
def mutation {α : Type} (conflictMessage : String) : Call α → Call α :=
  Attempt.absorb fun
    | .valueError _ => some { code := .conflict, message := conflictMessage }
    | .databaseError _ => some { code := .conflict, message := conflictMessage }
    | .decimalException _ => none
    | .overflowError _ => none

@[simp] theorem mutation_eq_success {α : Type} {m : String} {x : Call α} {a : α} :
    mutation m x = .success a ↔ x = .success a := Attempt.absorb_eq_success

/-- `except ValueError: return failure(CONFLICT, message)`. -/
def integrityChecked {α : Type} (message : String) : Call α → Call α :=
  Attempt.absorb fun
    | .valueError _ => some { code := .conflict, message := message }
    | _ => none

@[simp] theorem integrityChecked_eq_success {α : Type} {m : String} {x : Call α} {a : α} :
    integrityChecked m x = .success a ↔ x = .success a := Attempt.absorb_eq_success

theorem integrityChecked_returns {α : Type} {message : String} {x : Call α}
    (hx : OnlyValueErrors x) : (integrityChecked message x).Returns := by
  cases x with
  | success a => simp [integrityChecked, Attempt.absorb]
  | failure e => simp [integrityChecked, Attempt.absorb]
  | raised e =>
      obtain ⟨m, rfl⟩ := hx e rfl
      simp [integrityChecked, Attempt.absorb]

def guardUnless (c : Prop) [Decidable c] (message : String) : Call Unit :=
  Attempt.require c (.databaseError message)

@[simp] theorem guardUnless_eq_success {c : Prop} [Decidable c] {m : String} {u : Unit} :
    guardUnless c m = .success u ↔ c := Attempt.require_eq_success

/-- `row` of a query that must have a result. -/
def orFail {α : Type} (code : ErrorCode) (message : String) : Option α → Call α
  | some a => .success a
  | none => fail code message

@[simp] theorem orFail_eq_success {α : Type} {code : ErrorCode} {m : String} {x : Option α}
    {a : α} : orFail code m x = .success a ↔ x = some a := by
  cases x <;> simp [orFail, fail]

/-- `value.quantize(quantum, rounding=ROUND_HALF_EVEN)`: it rounds to the place of the last digit
with which the quantum is written, not to multiples of it, and raises when the result has more
digits than the context keeps. -/
def Decimal.quantize [Arithmetic] (value place : Decimal) : Call Decimal := do
  let places := Quantum.halfEven (value / place)
  Attempt.require (Arithmetic.context.Holds places) (.decimalException "InvalidOperation")
  return places * place

theorem Decimal.quantize_eq_success [Arithmetic] {value place rounded : Decimal} :
    Decimal.quantize value place = .success rounded ↔
      Arithmetic.context.Holds (Quantum.halfEven (value / place)) ∧
        rounded = Quantum.halfEvenTo value place := by
  simp only [Decimal.quantize, Attempt.bind_eq_success, Attempt.require_eq_success, Attempt.pure_eq,
    Attempt.success.injEq, Quantum.halfEvenTo]
  exact ⟨fun ⟨_, hholds, h⟩ => ⟨hholds, h.symm⟩, fun ⟨hholds, h⟩ => ⟨(), hholds, h.symm⟩⟩

/-! ## Canonical payloads and digests -/

/-- The canonical JSON value that is hashed; a record is the list of its fields. -/
inductive Payload where
  | null
  | bool (b : Bool)
  | int (n : ℤ)
  | decimal (q : Decimal)
  | text (s : String)
  | nil
  | cons (head tail : Payload)
deriving DecidableEq

namespace Payload

def list : List Payload → Payload
  | [] => nil
  | x :: xs => cons x (list xs)

@[simp] theorem list_inj {xs ys : List Payload} : list xs = list ys ↔ xs = ys := by
  induction xs generalizing ys with
  | nil => cases ys <;> simp [list]
  | cons x xs ih => cases ys <;> simp [list, ih]

def record (model : String) (fields : List Payload) : Payload := cons (text model) (list fields)

@[simp] theorem record_inj {m m' : String} {xs ys : List Payload} :
    record m xs = record m' ys ↔ m = m' ∧ xs = ys := by simp [record]

end Payload

/-- `model_dump(mode="json")`. -/
class Dump (α : Type) where
  dump : α → Payload

export Dump (dump)

instance : Dump Payload := ⟨id⟩
instance : Dump Bool := ⟨.bool⟩
instance : Dump ℕ := ⟨fun n => .int n⟩
instance : Dump ℤ := ⟨.int⟩
instance : Dump Decimal := ⟨.decimal⟩
instance : Dump String := ⟨.text⟩
instance {α : Type} [Dump α] : Dump (Option α) := ⟨fun x => x.elim .null dump⟩
instance {α : Type} [Dump α] : Dump (List α) := ⟨fun xs => .list (xs.map dump)⟩

@[simp] theorem dump_nat_inj {m n : ℕ} : dump m = dump n ↔ m = n := by
  simp [dump, Payload.int.injEq]

@[simp] theorem dump_string_inj {s t : String} : dump s = dump t ↔ s = t := by
  simp [dump, Payload.text.injEq]

/-- `stable_payload_hash` and `uuid5(NAMESPACE_URL, ...)`; a name is the list of its parts. -/
class Hashing where
  stablePayloadHash : Payload → Sha256
  uuid5 : Payload → UUID

export Hashing (stablePayloadHash uuid5)

/-- No two payloads share a digest and no two names share an identifier. -/
structure Hashing.CollisionFree [Hashing] : Prop where
  hash : Function.Injective stablePayloadHash
  uuid : Function.Injective uuid5

namespace Payload

/-- An injective code, which serves as digest and as identifier where the model is evaluated. -/
def code : Payload → ℕ
  | null => Coding.tag 0 0
  | bool b => Coding.tag 1 b.toNat
  | int n => Coding.tag 2 (Coding.ofInt n)
  | decimal q => Coding.tag 3 (Coding.ofRat q)
  | text s => Coding.tag 4 (Coding.ofString s)
  | nil => Coding.tag 5 0
  | cons head tail => Coding.tag 6 (Coding.join (code tail) (code head))

theorem code_injective : Function.Injective code := by
  intro x
  induction x with
  | cons head tail ihead itail =>
      intro y h
      cases y with
      | cons head' tail' =>
          obtain ⟨htail, hhead⟩ := Coding.join_inj (Coding.tag_inj h).2
          rw [ihead hhead, itail htail]
      | _ => exact absurd (Coding.tag_inj h).1 (by decide)
  | null | nil =>
      intro y h
      cases y with
      | null | nil => first | rfl | exact absurd (Coding.tag_inj h).1 (by decide)
      | _ => exact absurd (Coding.tag_inj h).1 (by decide)
  | bool b =>
      intro y h
      cases y with
      | bool b' =>
          have hbit := (Coding.tag_inj h).2
          cases b <;> cases b' <;> simp_all
      | _ => exact absurd (Coding.tag_inj h).1 (by decide)
  | int n =>
      intro y h
      cases y with
      | int n' => rw [Coding.ofInt_injective (Coding.tag_inj h).2]
      | _ => exact absurd (Coding.tag_inj h).1 (by decide)
  | decimal q =>
      intro y h
      cases y with
      | decimal q' => rw [Coding.ofRat_injective (Coding.tag_inj h).2]
      | _ => exact absurd (Coding.tag_inj h).1 (by decide)
  | text s =>
      intro y h
      cases y with
      | text s' => rw [Coding.ofString_injective (Coding.tag_inj h).2]
      | _ => exact absurd (Coding.tag_inj h).1 (by decide)

end Payload

namespace CodeHashing

/-- The codes as digests and identifiers. -/
scoped instance codes : Hashing := ⟨Payload.code, Payload.code⟩

theorem collisionFree : Hashing.CollisionFree := ⟨Payload.code_injective, Payload.code_injective⟩

end CodeHashing

/-! ## Helpers of `_trading.py` and the field types -/

export Quantum (IsQuantized)

/-- `_parse_decimal` and its refinements, as far as they restrict a finite rational. -/
def positiveDecimal (value : Decimal) : Call Unit :=
  raiseUnless (0 < value) "value must be greater than zero"

def nonNegativeDecimal (value : Decimal) : Call Unit :=
  raiseUnless (0 ≤ value) "value must be non-negative"

def unitDecimal (value : Decimal) : Call Unit :=
  raiseUnless (0 ≤ value ∧ value ≤ 1) "value must be between 0 and 1"

def nonEmptyString (value : String) : Call Unit :=
  raiseUnless (value ≠ "") "String should have at least 1 character"

/-- `not text.strip()`. -/
def isBlank (text : String) : Bool := text.toList.all Char.isWhitespace

/-- `^[A-Z]{3}$`. -/
def isCurrency (value : String) : Bool :=
  value.length == 3 && value.toList.all fun c => 'A' ≤ c && c ≤ 'Z'

def currencyCode (value : String) : Call Unit :=
  raiseUnless (isCurrency value = true) "String should match pattern '^[A-Z]\x7b3\x7d$'"

def atLeast (bound value : ℕ) : Call Unit :=
  raiseUnless (bound ≤ value) "Input should be greater than or equal to the lower bound"

def maxLength (bound length : ℕ) : Call Unit :=
  raiseUnless (length ≤ bound) "Input should have at most max_length items"

section

variable {value : Decimal} {text : String} {bound n : ℕ} {u : Unit}

@[simp] theorem positiveDecimal_eq_success : positiveDecimal value = .success u ↔ 0 < value :=
  raiseUnless_eq_success

@[simp] theorem nonNegativeDecimal_eq_success : nonNegativeDecimal value = .success u ↔ 0 ≤ value :=
  raiseUnless_eq_success

@[simp] theorem unitDecimal_eq_success : unitDecimal value = .success u ↔ 0 ≤ value ∧ value ≤ 1 :=
  raiseUnless_eq_success

@[simp] theorem nonEmptyString_eq_success : nonEmptyString text = .success u ↔ text ≠ "" :=
  raiseUnless_eq_success

@[simp] theorem currencyCode_eq_success :
    currencyCode text = .success u ↔ isCurrency text = true := raiseUnless_eq_success

@[simp] theorem atLeast_eq_success : atLeast bound n = .success u ↔ bound ≤ n :=
  raiseUnless_eq_success

@[simp] theorem maxLength_eq_success : maxLength bound n = .success u ↔ n ≤ bound :=
  raiseUnless_eq_success

end

def tupleLimit : ℕ := 100000

/-- `Model.model_validate(value)`: the value, once its validators have run. -/
def modelValidate {α : Type} (validate : α → Call Unit) (value : α) : Call α := do
  validate value
  return value

@[simp] theorem modelValidate_eq_success {α : Type} {validate : α → Call Unit} {value a : α} :
    modelValidate validate value = .success a ↔ validate value = .success () ∧ value = a := by
  cases h : validate value <;> simp [modelValidate, h]

end StonksPaper
