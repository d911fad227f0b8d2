import Mathlib.Algebra.Order.Floor.Ring
import Mathlib.Data.String.Basic
import StonksPaper.Base.FixedWindowRuns
import StonksPaper.Domain.Common

/-!
# The fixed-window stores

`InMemoryRateLimitStore` limits the API and `FixedWindowAdmissionStore` the isolated services. They
differ in the clock, in what they accept and in the end that a refusal names; a `Limiter` is what
they share. A clock of the second is exact here, where the source has a float.
-/

namespace StonksPaper.Limits

open FixedWindow

/-- The arguments of `consume`, on a clock that reads `C`. -/
structure Consume (C : Type) where
  key : String
  now : C
  limit : ℤ
  windowSeconds : ℤ
deriving DecidableEq

/-- `RateLimitDecision`, and `AdmissionDecision`. -/
structure Decision where
  allowed : Bool
  remaining : ℤ
  retryAfterSeconds : ℤ
deriving DecidableEq

structure Limiter (C T : Type) [LinearOrder T] where
  grid : Grid T
  accept : Consume C → Call (Request String T)
  decision : Request String T → Outcome T → Call Decision

/-- `any(ord(char) < 32 for char in key)`. -/
def hasControl (key : String) : Bool := key.toList.any fun char => char.toNat < 32

namespace InMemoryRateLimitStore

/-- A `datetime`: a naive one names no instant. -/
inductive Datetime where
  | naive (wall : ℤ)
  | aware (instant : UTCDateTime)
deriving DecidableEq

def init (maxKeys : ℤ) : Call (Store String ℤ) := do
  raiseUnless (1 ≤ maxKeys ∧ maxKeys ≤ 1000000) "max_keys must be between 1 and 1000000"
  return ⟨maxKeys.toNat, [], [], none⟩

/-- `_validate_request`, and the microseconds of the clock from `_utc_micros`. -/
def accept (call : Consume Datetime) : Call (Request String ℤ) := do
  raiseUnless (call.key ≠ "" ∧ call.key.length ≤ 256 ∧ hasControl call.key = false)
    "rate-limit key is invalid"
  match call.now with
  | .naive _ => .raised (.valueError "rate-limit clock must be timezone-aware")
  | .aware micros =>
      raiseUnless (1 ≤ call.limit ∧ call.limit ≤ 1000000) "rate-limit request count is invalid"
      raiseUnless (1 ≤ call.windowSeconds ∧ call.windowSeconds ≤ 86400)
        "rate-limit window is invalid"
      raiseUnless (0 ≤ micros) "rate-limit clock precedes the Unix epoch"
      return ⟨call.key, micros, call.limit.toNat, call.windowSeconds.toNat⟩

def windowMicros (seconds : ℕ) : ℤ := seconds * 1000000

theorem identifier_eq_iff {seconds : ℕ} (hseconds : 0 < seconds) (now k : ℤ) :
    now / windowMicros seconds = k ↔
      (k - 1 + 1) * windowMicros seconds ≤ now ∧ now < (k + 1) * windowMicros seconds := by
  have hpositive : 0 < windowMicros seconds := by
    unfold windowMicros
    omega
  rw [sub_add_cancel, ← Int.le_ediv_iff_mul_le hpositive, ← Int.ediv_lt_iff_lt_mul hpositive]
  omega

def grid : Grid ℤ where
  identifier seconds micros := micros / windowMicros seconds
  expiresAt seconds identifier := (identifier + 1) * windowMicros seconds
  identifier_eq_iff := identifier_eq_iff

def secondsUntil (expiresAtMicros nowMicros : ℤ) : ℤ :=
  max 1 ((expiresAtMicros - nowMicros + 999999) / 1000000)

/-- The construction of a `RateLimitDecision`, with its field bounds and its validator. -/
def rateLimitDecision (allowed : Bool) (remaining retryAfterSeconds : ℤ) : Call Decision := do
  raiseUnless (0 ≤ remaining ∧ 0 ≤ retryAfterSeconds) "greater_than_equal"
  raiseUnless (¬ (allowed = true ∧ retryAfterSeconds ≠ 0))
    "allowed decisions cannot request a retry"
  raiseUnless (¬ (allowed = false ∧ retryAfterSeconds < 1))
    "denied decisions require a positive retry"
  return ⟨allowed, remaining, retryAfterSeconds⟩

def allowed (remaining : ℤ) : Call Decision := rateLimitDecision true remaining 0

def denied (retryAfterSeconds : ℤ) : Call Decision := rateLimitDecision false 0 retryAfterSeconds

/-- An exceeded limit names the end of the window that the call is in. -/
def decision (request : Request String ℤ) : Outcome ℤ → Call Decision
  | .allowed remaining => allowed remaining
  | .regressed expiresAt => denied (secondsUntil expiresAt request.now)
  | .full expiresAt => denied (secondsUntil expiresAt request.now)
  | .mismatched expiresAt => denied (secondsUntil expiresAt request.now)
  | .exceeded expiresAt _ => denied (secondsUntil expiresAt request.now)

end InMemoryRateLimitStore

def inMemoryRateLimitStore : Limiter InMemoryRateLimitStore.Datetime ℤ where
  grid := InMemoryRateLimitStore.grid
  accept := InMemoryRateLimitStore.accept
  decision := InMemoryRateLimitStore.decision

namespace FixedWindowAdmissionStore

/-- A float: `none` is a NaN or an infinity. -/
abbrev Reading := Option ℚ

def validateInteger (value : ℤ) (name : String) (maximum : ℤ) : Call Unit :=
  raiseUnless (1 ≤ value ∧ value ≤ maximum) (name ++ " is outside the supported range")

def init (maxKeys : ℤ) : Call (Store String ℚ) := do
  validateInteger maxKeys "max_keys" 1000000
  return ⟨maxKeys.toNat, [], [], none⟩

/-- `_validate_consume`. -/
def accept (call : Consume Reading) : Call (Request String ℚ) := do
  raiseUnless (call.key ≠ "" ∧ call.key.length ≤ 128 ∧ hasControl call.key = false)
    "admission key is invalid"
  match call.now with
  | none => .raised (.valueError "admission clock is invalid")
  | some now =>
      raiseUnless (0 ≤ now) "admission clock is invalid"
      validateInteger call.limit "limit" 1000000
      validateInteger call.windowSeconds "window_seconds" 86400
      return ⟨call.key, now, call.limit.toNat, call.windowSeconds.toNat⟩

theorem identifier_eq_iff {seconds : ℕ} (hseconds : 0 < seconds) (now : ℚ) (k : ℤ) :
    ⌊now / seconds⌋ = k ↔
      ((k - 1 : ℤ) + 1 : ℚ) * seconds ≤ now ∧ now < (k + 1 : ℚ) * seconds := by
  have hpositive : (0 : ℚ) < seconds := by exact_mod_cast hseconds
  rw [Int.floor_eq_iff, le_div_iff₀ hpositive, div_lt_iff₀ hpositive]
  push_cast
  rw [sub_add_cancel]

def grid : Grid ℚ where
  identifier seconds now := ⌊now / seconds⌋
  expiresAt seconds identifier := (identifier + 1 : ℚ) * seconds
  identifier_eq_iff := identifier_eq_iff

def retryAfter (expiresAt now : ℚ) : ℤ := max 1 ⌈expiresAt - now⌉

def allowed (remaining : ℤ) : Decision := ⟨true, remaining, 0⟩

def denied (retryAfter : ℤ) : Decision := ⟨false, 0, retryAfter⟩

/-- An exceeded limit names the end of the window that is held. -/
def decision (request : Request String ℚ) : Outcome ℚ → Decision
  | .allowed remaining => allowed remaining
  | .regressed expiresAt => denied (retryAfter expiresAt request.now)
  | .full expiresAt => denied (retryAfter expiresAt request.now)
  | .mismatched expiresAt => denied (retryAfter expiresAt request.now)
  | .exceeded _ held => denied (retryAfter held request.now)

end FixedWindowAdmissionStore

def fixedWindowAdmissionStore : Limiter FixedWindowAdmissionStore.Reading ℚ where
  grid := FixedWindowAdmissionStore.grid
  accept := FixedWindowAdmissionStore.accept
  decision request outcome := .success (FixedWindowAdmissionStore.decision request outcome)

namespace Limiter

variable {C T : Type} [LinearOrder T] (self : Limiter C T)

/-- A call that is not accepted raises before it reaches the store. -/
def consume (store : Store String T) (call : Consume C) : Store String T × Call Decision :=
  match self.accept call with
  | .success request =>
      ((FixedWindow.consume self.grid store request).1,
        self.decision request (FixedWindow.consume self.grid store request).2)
  | .failure error => (store, .failure error)
  | .raised error => (store, .raised error)

/-- A call of a run, with the largest clock before it and whether there was no room for it. -/
structure Sighting (C T : Type) where
  call : Consume C
  latest : Option T
  noRoom : Bool
deriving DecidableEq

def sight (store : Store String T) (call : Consume C) : Sighting C T where
  call := call
  latest := store.latest
  noRoom :=
    match self.accept call with
    | .success request => noRoom store request
    | _ => false

/-- The calls of a run with their results. -/
def log (store : Store String T) : List (Consume C) → List (Sighting C T × Call Decision)
  | [] => []
  | call :: rest =>
      (self.sight store call, (self.consume store call).2) :: log (self.consume store call).1 rest

def after (store : Store String T) (calls : List (Consume C)) : Store String T :=
  calls.foldl (fun store call => (self.consume store call).1) store

def empty (maxKeys : ℕ) : Store String T := ⟨maxKeys, [], [], none⟩

def clock (call : Consume C) : Option T := (self.accept call).toOption.map (·.now)

/-- The limit and what remains, for a call of the key that the window `k` of this length allows. -/
def allowedIn (key : String) (seconds k : ℤ) (entry : Sighting C T × Call Decision) :
    Option (ℤ × ℤ) :=
  if entry.1.call.key = key ∧ entry.1.call.windowSeconds = seconds ∧
      ∃ now ∈ self.clock entry.1.call, InWindow self.grid seconds.toNat k now then
    match entry.2 with
    | .success decision =>
        if decision.allowed = true then some (entry.1.call.limit, decision.remaining) else none
    | _ => none
  else none

end Limiter

end StonksPaper.Limits
