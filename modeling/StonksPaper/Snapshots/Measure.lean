import StonksPaper.Base.Budget
import StonksPaper.Base.Tracked
import StonksPaper.Snapshots.Json

/-!
# The bounded measure of a JSON payload

`normalized_payload_size` of `dataset_snapshot.py`. The recursion is on the levels of nesting that
the depth leaves, so it ends on every value. The set of active containers is one mutable set: every
exit puts it back as it was, and so a container that occurs twice is measured twice, and only one
that contains itself is refused.
-/

namespace StonksPaper

namespace Snapshots

/-! ## The measure -/

def maxNormalizedItemBytes : ℤ := 512 * 1024
def maxJsonDepth : ℕ := 8
def maxJsonListItems : ℕ := 10000
def maxJsonMapItems : ℕ := 2000
def maxJsonKeyLength : ℕ := 256

/-- What leaves a measure; the second is the `KeyError` of `set.remove`. -/
inductive MeasureError where
  | valueError (message : String)
  | keyError
deriving DecidableEq, Repr

abbrev Measuring := Tracked (Finset ℕ) MeasureError

def containsControl (value : Text) : Bool := value.any fun c => c.val < 32 || c.val = 127

def Key.isValid : Key → Bool
  | .text key => !key.isEmpty && key.length ≤ maxJsonKeyLength && !containsControl key
  | .other _ => false

def raiseValueError {α : Type} (message : String) : Except MeasureError α :=
  .error (.valueError message)

def withinBudget (size remaining : ℤ) : Except MeasureError ℤ :=
  Budget.within (.valueError "snapshot normalized evidence exceeds item size limit") size remaining

section

variable {F : Type} [PyFloat F]

def Scalar.isFinite : Scalar F → Bool
  | .float x => PyFloat.isFinite x
  | _ => true

def measureScalar (value : Scalar F) (remaining : ℤ) : Except MeasureError ℤ :=
  if value.isFinite = false then raiseValueError "snapshot normalized numbers must be finite"
  else match (scalarText value).bind utf8Length with
    | none => raiseValueError "snapshot normalized scalar is invalid"
    | some length => withinBudget length remaining

/-- `_validated_keys`; each key comes with its value. -/
def validatedKeys (entries : List (Key × Value F)) : Except MeasureError (List (Text × Value F)) :=
  if entries.all (·.1.isValid) then .ok (sortedEntries entries)
  else raiseValueError "snapshot normalized JSON key is invalid"

/-- `_enter_container`, with the `finally` clause of its callers. -/
def inContainer (identity : ℕ) (body : Measuring ℤ) : Measuring ℤ :=
  Tracked.whileActive identity (.valueError "snapshot normalized JSON contains a cycle") .keyError
    body

def measureList (measure : Value F → ℤ → Measuring ℤ) (identity : ℕ) (items : List (Value F))
    (remaining : ℤ) : Measuring ℤ :=
  if items.length > maxJsonListItems then
    Tracked.lift (raiseValueError "snapshot normalized JSON list exceeds item limit")
  else inContainer identity do
    let total ← Tracked.lift (withinBudget (2 + max 0 ((items.length : ℤ) - 1)) remaining)
    items.foldlM (fun total item => do
      let size ← measure item (remaining - total)
      return total + size) total

def measureMap (measure : Value F → ℤ → Measuring ℤ) (identity : ℕ)
    (entries : List (Key × Value F)) (remaining : ℤ) : Measuring ℤ :=
  if entries.length > maxJsonMapItems then
    Tracked.lift (raiseValueError "snapshot normalized JSON object exceeds item limit")
  else do
    let keys ← Tracked.lift (validatedKeys entries)
    inContainer identity do
      let total ← Tracked.lift (withinBudget (2 + max 0 ((keys.length : ℤ) - 1)) remaining)
      keys.foldlM (fun total key => do
        let keySize ← Tracked.lift (measureScalar (.text key.1 : Scalar F) (remaining - total))
        let colon ← Tracked.lift (withinBudget 1 (remaining - total - keySize))
        let total := total + (keySize + colon)
        let size ← measure key.2 (remaining - total)
        return total + size) total

/-- `_measure_json`, at the depth that leaves so many levels. -/
def measureJson (heap : Heap F) : ℕ → Value F → ℤ → Measuring ℤ
  | 0, _, _ => Tracked.lift (raiseValueError "snapshot normalized JSON nesting is too deep")
  | _ + 1, .scalar value, remaining => Tracked.lift (measureScalar value remaining)
  | levels + 1, .ref identity, remaining => match heap identity with
      | .list items => measureList (measureJson heap levels) identity items remaining
      | .map entries _ => measureMap (measureJson heap levels) identity entries remaining
  | _ + 1, .other, _ =>
      Tracked.lift (raiseValueError "snapshot normalized payload contains a non-JSON value")

def normalizedPayloadSize (heap : Heap F) (payload : Value F) : Except MeasureError ℤ :=
  (measureJson heap (maxJsonDepth + 1) payload maxNormalizedItemBytes).outcomeOf ∅

end

end Snapshots

end StonksPaper
