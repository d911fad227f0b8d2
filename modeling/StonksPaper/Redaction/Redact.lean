import Mathlib.Data.Finset.Basic
import Mathlib.Data.Prod.Lex
import StonksPaper.Base.InStep
import StonksPaper.Snapshots.Json

/-!
# Redaction and the leak gate

`domain/redaction.py`. A value is a leaf or a reference to a container of the heap, so it may occur
within itself; the copy that `redact` makes is a tree. Both recursions are on the levels of nesting
that the depth leaves, so they end on every value. The substitutions of the compiled patterns and
`repr` are parameters.
-/

namespace StonksPaper

open Chain
open Snapshots (CodePoint Text ascii)

namespace Redaction

/-! ## Limits and known secrets -/

def REDACTED : Text := ascii "[REDACTED]"
def TRUNCATED : Text := ascii "[TRUNCATED]"

structure RedactionLimits where
  maxDepth : ℕ
  maxItems : ℕ
  maxStringLength : ℕ
  maxBytesLength : ℕ
  maxDepth_pos : 0 < maxDepth
  maxItems_pos : 0 < maxItems
  maxStringLength_pos : 0 < maxStringLength
  maxBytesLength_pos : 0 < maxBytesLength

def DEFAULT_REDACTION_LIMITS : RedactionLimits where
  maxDepth := 12
  maxItems := 10000
  maxStringLength := 131072
  maxBytesLength := 131072
  maxDepth_pos := by decide
  maxItems_pos := by decide
  maxStringLength_pos := by decide
  maxBytesLength_pos := by decide

inductive RedactionError where
  | secretLeakDetected
  | valueError (message : String)
  | typeError (message : String)
deriving DecidableEq, Repr

/-- An entry of the known secrets. Of bytes, their number and their UTF-8 decoding, if there is
one. -/
inductive KnownSecret where
  | text (value : Text)
  | bytes (length : ℕ) (decoded : Option Text)
  | other
deriving DecidableEq

def exceedsBounds {α : Type} : Except RedactionError α :=
  .error (.valueError "known secret exceeds redaction bounds")

/-- The text of a known secret; `none` is skipped. -/
def KnownSecret.candidate (limits : RedactionLimits) :
    KnownSecret → Except RedactionError (Option Text)
  | .bytes length decoded =>
      if limits.maxBytesLength < length then exceedsBounds else .ok decoded
  | .text value => .ok (some value)
  | .other => .error (.typeError "known secrets must be strings or bytes")

/-- One round of the loop of `_normalize_known_secrets`; the set is kept without repetitions. -/
def addKnownSecret (limits : RedactionLimits) (normalized : List Text) (value : KnownSecret) :
    Except RedactionError (List Text) :=
  (value.candidate limits).bind fun
    | none => .ok normalized
    | some candidate =>
        if limits.maxStringLength < candidate.length then exceedsBounds
        else if candidate = [] then .ok normalized
        else .ok (normalized.insert candidate)

/-- `(-len(item), item)`. -/
def secretOrder (item : Text) : ℤ ×ₗ Text := toLex (-item.length, item)

def normalizeKnownSecrets (values : List KnownSecret) (limits : RedactionLimits) :
    Except RedactionError (List Text) :=
  (values.foldlM (addKnownSecret limits) []).map (sorted secretOrder)

/-! ## Text -/

/-- `value.replace(old, new)` of a non-empty `old`; the count is of the characters of an occurrence
that are still to be dropped. -/
def replaceFrom (old new : Text) : ℕ → Text → Text
  | _, [] => []
  | dropped + 1, _ :: rest => replaceFrom old new dropped rest
  | 0, c :: rest =>
      if old.isPrefixOf (c :: rest) then new ++ replaceFrom old new (old.length - 1) rest
      else c :: replaceFrom old new 0 rest

def redactKnown (value : Text) (secrets : List Text) : Text :=
  secrets.foldl (fun value secret => replaceFrom secret REDACTED 0 value) value

/-- The words at the end of a sensitive key. -/
def sensitiveWords : List Text :=
  ["authorization", "cookie", "password", "passwd", "passphrase", "privatekey", "apikey",
    "accesstoken", "refreshtoken", "idtoken", "clientsecret", "secret", "token",
    "credential"].map ascii

/-- The ASCII letter in lower case or digit that a code point is, if it is one. -/
def alphanumeric (c : CodePoint) : Option CodePoint :=
  if 65 ≤ c.val ∧ c.val ≤ 90 then some (c + 32)
  else if (97 ≤ c.val ∧ c.val ≤ 122) ∨ (48 ≤ c.val ∧ c.val ≤ 57) then some c
  else none

def isSensitiveKey (key : Text) : Bool :=
  sensitiveWords.any fun word => word.isSuffixOf (key.filterMap alphanumeric)

/-! ## Values -/

section

variable {Plain : Type}

/-- A leaf of a value, or a reference to one of its containers. Numbers and the other values that
redaction does not look into are plain; bytes and the secret types of pydantic are secret. -/
inductive Value (Plain : Type) where
  | text (value : Text)
  | none
  | plain (value : Plain)
  | secret
  | error (typeName message : Text)
  | ref (identity : ℕ)

/-- A mapping has its entries under the `str` of their keys; the fields of a dataclass are such
entries. Of a model there is what its `model_dump` returns, or the message of the `ValueError` that
it raises for a model that contains itself or nests too deep. -/
inductive Container (Plain : Type) where
  | mapping (entries : List (Text × Value Plain))
  | model (dumped : Except String (List (Text × Value Plain)))
  | sequence (isTuple : Bool) (items : List (Value Plain))
  | set (items : List (Value Plain))

abbrev Heap (Plain : Type) := ℕ → Container Plain

/-- A redacted copy. -/
inductive Tree (Plain : Type) where
  | text (value : Text)
  | none
  | plain (value : Plain)
  | mapping (entries : List (Text × Tree Plain))
  | sequence (isTuple : Bool) (items : List (Tree Plain))

/-- `value in {"", REDACTED, TRUNCATED}`. -/
def isSafeText (value : Text) : Bool := value = [] || value = REDACTED || value = TRUNCATED

def Value.alreadySafe : Value Plain → Bool
  | .none => true
  | .text value => isSafeText value
  | _ => false

/-- What a traversal reads and does not change, with what the module takes from `re` and `repr`. -/
structure Traversal (Plain : Type) where
  limits : RedactionLimits
  knownSecrets : List Text
  patterns : Text → Text
  repr : Tree Plain → Text

/-- `redact_text`, on known secrets that are normalized; the patterns are substituted after them. -/
def Traversal.redactText (t : Traversal Plain) (value : Text) : Text :=
  if t.limits.maxStringLength < value.length then TRUNCATED
  else t.patterns (redactKnown value t.knownSecrets)

/-! ## Redaction -/

/-- `_enter` and its `finally` clause: the items are taken from the remaining ones, and the body
runs while the identity is active. -/
def inContainer {m : Type → Type} [Monad m] {β : Type} (active : Finset ℕ) (identity count : ℕ)
    (refused : β) (body : Finset ℕ → StateT ℕ m β) : StateT ℕ m β := fun remaining =>
  if identity ∈ active ∨ remaining < count then pure (refused, remaining)
  else body (insert identity active) (remaining - count)

/-- A copy under way: the items that remain, and the exceptions of `model_dump`. -/
abbrev Copying := StateT ℕ (Except RedactionError)

def Traversal.redactError (t : Traversal Plain) (typeName message : Text) : Tree Plain :=
  .mapping [(ascii "error_type", .text typeName), (ascii "message", .text (t.redactText message))]

/-- One round of `_redact_container`. -/
def Traversal.redactEntry (t : Traversal Plain) (redact : Value Plain → Copying (Tree Plain))
    (entry : Text × Value Plain) : Copying (Text × Tree Plain) := do
  let item ←
    if isSensitiveKey entry.1 && !entry.2.alreadySafe then pure (.text REDACTED)
    else redact entry.2
  return (t.redactText entry.1, item)

def Traversal.redactContainer (t : Traversal Plain)
    (redact : Finset ℕ → Value Plain → Copying (Tree Plain)) (active : Finset ℕ) (identity : ℕ)
    (entries : List (Text × Value Plain)) : Copying (Tree Plain) :=
  inContainer active identity entries.length (.text TRUNCATED) fun active => do
    let items ← entries.mapM (t.redactEntry (redact active))
    return .mapping (Dict.ofEntries items)

/-- `_redact`, at the depth that leaves so many levels. -/
def Traversal.redact (t : Traversal Plain) (heap : Heap Plain) :
    ℕ → Finset ℕ → Value Plain → Copying (Tree Plain)
  | 0, _, _ => pure (.text TRUNCATED)
  | _ + 1, _, .text value => pure (.text (t.redactText value))
  | _ + 1, _, .none => pure .none
  | _ + 1, _, .plain value => pure (.plain value)
  | _ + 1, _, .secret => pure (.text REDACTED)
  | _ + 1, _, .error typeName message => pure (t.redactError typeName message)
  | levels + 1, active, .ref identity => match heap identity with
      | .mapping entries => t.redactContainer (t.redact heap levels) active identity entries
      | .model (.ok entries) => t.redactContainer (t.redact heap levels) active identity entries
      | .model (.error message) => throw (.valueError message)
      | .sequence isTuple items =>
          inContainer active identity items.length (.text TRUNCATED) fun active => do
            let items ← items.mapM (t.redact heap levels active)
            return .sequence isTuple items
      | .set items =>
          inContainer active identity items.length (.text TRUNCATED) fun active => do
            let items ← items.mapM (t.redact heap levels active)
            return .sequence true (sorted t.repr items)

/-! ## The gate -/

/-- `_ensure_text_secret_free` passes. -/
def Traversal.IsSecretFree (t : Traversal Plain) (value : Text) : Prop :=
  value.length ≤ t.limits.maxStringLength ∧ t.redactText value = value

instance (t : Traversal Plain) (value : Text) : Decidable (t.IsSecretFree value) :=
  inferInstanceAs (Decidable (_ ∧ _))

def require (p : Prop) [Decidable p] (remaining : ℕ) : Except RedactionError ℕ :=
  if p then .ok remaining else .error .secretLeakDetected

/-- `_require_enter` and its `finally` clause. -/
def requireEnter (active : Finset ℕ) (identity count : ℕ)
    (body : Finset ℕ → ℕ → Except RedactionError ℕ) (remaining : ℕ) : Except RedactionError ℕ :=
  if identity ∈ active ∨ remaining < count then .error .secretLeakDetected
  else body (insert identity active) (remaining - count)

/-- One round of `_ensure_mapping`. -/
def Traversal.ensureEntry (t : Traversal Plain)
    (ensure : Value Plain → ℕ → Except RedactionError ℕ) (entry : Text × Value Plain)
    (remaining : ℕ) : Except RedactionError ℕ := do
  let remaining ← require (t.IsSecretFree entry.1) remaining
  let remaining ← require (isSensitiveKey entry.1 → entry.2.alreadySafe) remaining
  ensure entry.2 remaining

def Traversal.ensureMapping (t : Traversal Plain)
    (ensure : Finset ℕ → Value Plain → ℕ → Except RedactionError ℕ) (active : Finset ℕ)
    (identity : ℕ) (entries : List (Text × Value Plain)) : ℕ → Except RedactionError ℕ :=
  requireEnter active identity entries.length fun active remaining =>
    entries.foldlM (fun remaining entry => t.ensureEntry (ensure active) entry remaining) remaining

/-- `_ensure_secret_free`, at the depth that leaves so many levels; the items that remain are passed
on. -/
def Traversal.ensureSecretFree (t : Traversal Plain) (heap : Heap Plain) :
    ℕ → Finset ℕ → Value Plain → ℕ → Except RedactionError ℕ
  | 0, _, _, _ => .error .secretLeakDetected
  | _ + 1, _, .text value, remaining => require (t.IsSecretFree value) remaining
  | _ + 1, _, .none, remaining => .ok remaining
  | _ + 1, _, .plain _, remaining => .ok remaining
  | _ + 1, _, .secret, _ => .error .secretLeakDetected
  | _ + 1, _, .error _ message, remaining => require (t.IsSecretFree message) remaining
  | levels + 1, active, .ref identity, remaining => match heap identity with
      | .mapping entries =>
          t.ensureMapping (t.ensureSecretFree heap levels) active identity entries remaining
      | .model (.ok entries) =>
          t.ensureMapping (t.ensureSecretFree heap levels) active identity entries remaining
      | .model (.error message) => .error (.valueError message)
      | .sequence _ items => requireEnter active identity items.length (fun active remaining =>
          items.foldlM (fun remaining item => t.ensureSecretFree heap levels active item remaining)
            remaining) remaining
      | .set items => requireEnter active identity items.length (fun active remaining =>
          items.foldlM (fun remaining item => t.ensureSecretFree heap levels active item remaining)
            remaining) remaining

end

/-! ## Entry points -/

section

variable {Plain : Type} (patterns : Text → Text) (repr : Tree Plain → Text)
  (known : List KnownSecret) (limits : RedactionLimits) (heap : Heap Plain) (value : Value Plain)

def redact : Except RedactionError (Tree Plain) :=
  (normalizeKnownSecrets known limits).bind fun secrets =>
    ((Traversal.mk limits secrets patterns repr).redact heap (limits.maxDepth + 1) ∅ value
      |>.run limits.maxItems).map (·.1)

def ensureSecretFree : Except RedactionError Unit :=
  (normalizeKnownSecrets known limits).bind fun secrets =>
    ((Traversal.mk limits secrets patterns repr).ensureSecretFree heap (limits.maxDepth + 1) ∅ value
      limits.maxItems).map fun _ => ()

end

end Redaction

end StonksPaper
