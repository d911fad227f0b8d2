import Mathlib.Data.Finset.Basic
import Mathlib.Data.List.Basic

/-!
# State that survives exceptions

A computation over a mutable state may raise, and the state is then as the exception left it. A
computation that puts the state back on every exit only reads it: its outcomes compose like those of
a reader. Entering a set of active keys and leaving it in a `finally` clause is such a computation.
-/

/-- A result or an exception, and the state that it leaves. -/
def Tracked (σ ε α : Type) : Type := σ → Except ε α × σ

namespace Tracked

variable {σ ε α β ι κ : Type}

/-- Continue with the result; an exception keeps the state it was raised in. -/
def andThen (x : Tracked σ ε α) (f : α → Tracked σ ε β) : Tracked σ ε β := fun s =>
  match x s with
  | (.ok a, s') => f a s'
  | (.error e, s') => (.error e, s')

instance : Monad (Tracked σ ε) where
  pure a := fun s => (.ok a, s)
  bind := andThen

/-- A computation that does not touch the state. -/
def lift (x : Except ε α) : Tracked σ ε α := fun s => (x, s)

/-- `try: body finally: cleanup`; an exception of the cleanup replaces the result. -/
def tryFinally (body : Tracked σ ε α) (cleanup : Tracked σ ε Unit) : Tracked σ ε α := fun s =>
  match cleanup (body s).2 with
  | (.ok _, s') => ((body s).1, s')
  | (.error e, s') => (.error e, s')

/-- What a computation ends in. -/
def outcomeOf (x : Tracked σ ε α) (s : σ) : Except ε α := (x s).1

/-- Every exit leaves the state as the entry found it. -/
def Restores (x : Tracked σ ε α) : Prop := ∀ s, (x s).2 = s

theorem restores_pure (a : α) : Restores (pure a : Tracked σ ε α) := fun _ => rfl

theorem restores_lift (x : Except ε α) : Restores (lift x : Tracked σ ε α) := fun _ => rfl

@[simp] theorem outcomeOf_pure (a : α) (s : σ) : outcomeOf (pure a : Tracked σ ε α) s = .ok a := rfl

@[simp] theorem outcomeOf_lift (x : Except ε α) (s : σ) :
    outcomeOf (lift x : Tracked σ ε α) s = x := rfl

theorem bind_eq (x : Tracked σ ε α) (f : α → Tracked σ ε β) (s : σ) :
    (x >>= f) s = match x s with
      | (.ok a, s') => f a s'
      | (.error e, s') => (.error e, s') := rfl

theorem Restores.bind {x : Tracked σ ε α} {f : α → Tracked σ ε β} (hx : Restores x)
    (hf : ∀ a, Restores (f a)) : Restores (x >>= f) := by
  intro s
  have hstate := hx s
  rw [bind_eq]
  cases h : x s with
  | mk result s' =>
      rw [h] at hstate
      cases result with
      | error e => exact hstate
      | ok a => exact (hf a s').trans hstate

theorem outcomeOf_bind {x : Tracked σ ε α} (f : α → Tracked σ ε β) (hx : Restores x) (s : σ) :
    outcomeOf (x >>= f) s = outcomeOf x s >>= fun a => outcomeOf (f a) s := by
  have hstate := hx s
  simp only [outcomeOf, bind_eq]
  cases h : x s with
  | mk result s' =>
      rw [h] at hstate
      obtain rfl : s' = s := hstate
      cases result <;> rfl

theorem restores_foldlM {f : α → ι → Tracked σ ε α} (hf : ∀ a i, Restores (f a i)) (xs : List ι)
    (a : α) : Restores (xs.foldlM f a) := by
  induction xs generalizing a with
  | nil => exact restores_pure a
  | cons x xs ih =>
      rw [List.foldlM_cons]
      exact (hf a x).bind ih

/-- A loop of computations that restore the state is a loop of their outcomes. -/
theorem outcomeOf_foldlM {f : α → ι → Tracked σ ε α} (hf : ∀ a i, Restores (f a i)) (xs : List ι)
    (a : α) (s : σ) :
    outcomeOf (xs.foldlM f a) s = xs.foldlM (fun a i => outcomeOf (f a i) s) a := by
  induction xs generalizing a with
  | nil => rfl
  | cons x xs ih =>
      rw [List.foldlM_cons, List.foldlM_cons, outcomeOf_bind _ (hf a x)]
      cases outcomeOf (f a x) s with
      | error e => rfl
      | ok b => exact ih b

/-! ## Active keys -/

section

variable [DecidableEq κ] {key : κ} {already missing : ε}

/-- `if key in active: raise already`, and then `active.add(key)`. -/
def enter (key : κ) (already : ε) : Tracked (Finset κ) ε Unit := fun active =>
  if key ∈ active then (.error already, active) else (.ok (), insert key active)

/-- `active.remove(key)`, which raises when the key is missing. -/
def leave (key : κ) (missing : ε) : Tracked (Finset κ) ε Unit := fun active =>
  if key ∈ active then (.ok (), active.erase key) else (.error missing, active)

/-- A computation while a key is active. -/
def whileActive (key : κ) (already missing : ε) (body : Tracked (Finset κ) ε α) :
    Tracked (Finset κ) ε α := do
  enter key already
  tryFinally body (leave key missing)

/-- The key is active in the body, and it is taken out on every exit. -/
theorem whileActive_eq {body : Tracked (Finset κ) ε α} (hbody : Restores body)
    (active : Finset κ) : whileActive key already missing body active =
      if key ∈ active then (.error already, active)
      else (outcomeOf body (insert key active), active) := by
  rw [whileActive, bind_eq]
  by_cases hkey : key ∈ active
  · simp [enter, hkey]
  · have hleave : leave key missing (insert key active) = (.ok (), active) := by
      simp [leave, hkey]
    simp only [enter, hkey, if_false, tryFinally, hbody (insert key active), hleave]
    rfl

theorem restores_whileActive {body : Tracked (Finset κ) ε α} (hbody : Restores body) :
    Restores (whileActive key already missing body) := by
  intro active
  rw [whileActive_eq hbody]
  split <;> rfl

theorem outcomeOf_whileActive {body : Tracked (Finset κ) ε α} (hbody : Restores body)
    (active : Finset κ) : outcomeOf (whileActive key already missing body) active =
      if key ∈ active then .error already else outcomeOf body (insert key active) := by
  rw [outcomeOf, whileActive_eq hbody]
  split <;> rfl

end

end Tracked
