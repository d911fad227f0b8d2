import Mathlib.Data.List.Forall2
import Mathlib.Logic.Basic
import Mathlib.Tactic.TypeStar

/-!
# Calls that return, report or raise

A call of the modelled language ends in one of three ways: it returns a value, it returns a
failure value of its own result type, or an exception leaves it. `Attempt φ ε` is the monad of
such calls. Sequencing stops at the first failure or exception; `absorb` is a handler that turns
exceptions into failures. The inversion lemmas below are the only facts the rest of a proof
needs about a `do` block.
-/

universe u v

/-- The three ends of a call: a value, a reported failure, an escaping exception. -/
inductive Attempt (φ ε : Type) (α : Type u) : Type u where
  | success (value : α)
  | failure (error : φ)
  | raised (error : ε)
deriving DecidableEq

namespace Attempt

variable {φ ε : Type} {α β : Type u}

/-- Continue with the value of a successful call; pass the other two ends on. -/
def andThen (x : Attempt φ ε α) (f : α → Attempt φ ε β) : Attempt φ ε β :=
  match x with
  | success a => f a
  | failure e => failure e
  | raised e => raised e

instance : Monad (Attempt φ ε) where
  pure := success
  bind := andThen

instance : LawfulMonad (Attempt φ ε) := LawfulMonad.mk' _
  (fun x => by cases x <;> rfl)
  (fun _ _ => rfl)
  (fun x _ _ => by cases x <;> rfl)

@[simp] theorem pure_eq (a : α) : (pure a : Attempt φ ε α) = success a := rfl

@[simp] theorem success_bind (a : α) (f : α → Attempt φ ε β) : (success a >>= f) = f a := rfl

@[simp] theorem failure_bind (e : φ) (f : α → Attempt φ ε β) :
    ((failure e : Attempt φ ε α) >>= f) = failure e := rfl

@[simp] theorem raised_bind (e : ε) (f : α → Attempt φ ε β) :
    ((raised e : Attempt φ ε α) >>= f) = raised e := rfl

theorem bind_eq_success {x : Attempt φ ε α} {f : α → Attempt φ ε β} {b : β} :
    (x >>= f) = success b ↔ ∃ a, x = success a ∧ f a = success b := by
  cases x <;> simp

theorem bind_eq_failure {x : Attempt φ ε α} {f : α → Attempt φ ε β} {e : φ} :
    (x >>= f) = failure e ↔ x = failure e ∨ ∃ a, x = success a ∧ f a = failure e := by
  cases x <;> simp

theorem bind_eq_raised {x : Attempt φ ε α} {f : α → Attempt φ ε β} {e : ε} :
    (x >>= f) = raised e ↔ x = raised e ∨ ∃ a, x = success a ∧ f a = raised e := by
  cases x <;> simp

/-- The call ended with a value. -/
def Succeeds (x : Attempt φ ε α) : Prop := ∃ a, x = success a

instance : (x : Attempt φ ε α) → Decidable x.Succeeds
  | success a => isTrue ⟨a, rfl⟩
  | failure e => isFalse (by simp [Succeeds])
  | raised e => isFalse (by simp [Succeeds])

/-- The call ended with a value that has the property. -/
def SucceedsWith (x : Attempt φ ε α) (P : α → Prop) : Prop := ∃ a, x = success a ∧ P a

instance (P : α → Prop) [DecidablePred P] : (x : Attempt φ ε α) → Decidable (x.SucceedsWith P)
  | success a => decidable_of_iff (P a) (by simp [SucceedsWith])
  | failure e => isFalse (by simp [SucceedsWith])
  | raised e => isFalse (by simp [SucceedsWith])

/-- The value of a successful call. -/
def toOption : Attempt φ ε α → Option α
  | success a => some a
  | _ => none

@[simp] theorem toOption_success (a : α) : (success a : Attempt φ ε α).toOption = some a := rfl

@[simp] theorem toOption_failure (e : φ) : (failure e : Attempt φ ε α).toOption = none := rfl

@[simp] theorem toOption_raised (e : ε) : (raised e : Attempt φ ε α).toOption = none := rfl

theorem toOption_eq_some {x : Attempt φ ε α} {a : α} : x.toOption = some a ↔ x = success a := by
  cases x <;> simp [toOption]

/-- The call ended with a value or a reported failure. -/
def Returns (x : Attempt φ ε α) : Prop := ∀ e, x ≠ raised e

@[simp] theorem returns_success (a : α) : (success a : Attempt φ ε α).Returns := by simp [Returns]

@[simp] theorem returns_failure (e : φ) : (failure e : Attempt φ ε α).Returns := by simp [Returns]

@[simp] theorem not_returns_raised (e : ε) : ¬ (raised e : Attempt φ ε α).Returns := by
  simp [Returns]

theorem Returns.succeeds {x : Attempt φ ε α} (h : x.Returns) (hf : ∀ f, x ≠ failure f) :
    x.Succeeds := by
  cases x with
  | success a => exact ⟨a, rfl⟩
  | failure f => exact absurd rfl (hf f)
  | raised e => exact absurd h (not_returns_raised e)

theorem returns_bind {x : Attempt φ ε α} {f : α → Attempt φ ε β} :
    (x >>= f).Returns ↔ x.Returns ∧ ∀ a, x = success a → (f a).Returns := by
  cases x <;> simp

/-! ## Checks -/

/-- A validator's check: raise `e` unless the condition holds. -/
def require (c : Prop) [Decidable c] (e : ε) : Attempt φ ε PUnit.{u + 1} :=
  if c then success ⟨⟩ else raised e

/-- A function's check: report `e` unless the condition holds. -/
def demand (c : Prop) [Decidable c] (e : φ) : Attempt φ ε PUnit.{u + 1} :=
  if c then success ⟨⟩ else failure e

@[simp] theorem require_eq_success {c : Prop} [Decidable c] {e : ε} {u : PUnit.{u + 1}} :
    (require c e : Attempt φ ε PUnit) = success u ↔ c := by
  unfold require; split <;> simp_all

@[simp] theorem demand_eq_success {c : Prop} [Decidable c] {e : φ} {u : PUnit.{u + 1}} :
    (demand c e : Attempt φ ε PUnit) = success u ↔ c := by
  unfold demand; split <;> simp_all

@[simp] theorem require_ne_failure {c : Prop} [Decidable c] {e : ε} {e' : φ} :
    (require c e : Attempt φ ε PUnit.{u + 1}) ≠ failure e' := by
  unfold require; split <;> simp

@[simp] theorem demand_ne_raised {c : Prop} [Decidable c] {e : φ} {e' : ε} :
    (demand c e : Attempt φ ε PUnit.{u + 1}) ≠ raised e' := by
  unfold demand; split <;> simp

theorem require_of {c : Prop} [Decidable c] (h : c) (e : ε) :
    (require c e : Attempt φ ε PUnit.{u + 1}) = success ⟨⟩ := if_pos h

theorem demand_of {c : Prop} [Decidable c] (h : c) (e : φ) :
    (demand c e : Attempt φ ε PUnit.{u + 1}) = success ⟨⟩ := if_pos h

@[simp] theorem returns_require {c : Prop} [Decidable c] {e : ε} :
    (require c e : Attempt φ ε PUnit.{u + 1}).Returns ↔ c := by
  unfold require; split <;> simp_all

@[simp] theorem returns_demand {c : Prop} [Decidable c] {e : φ} :
    (demand c e : Attempt φ ε PUnit.{u + 1}).Returns := by
  unfold demand; split <;> simp

/-! ## Loops -/

/-- A loop of checks passes when each of them does. -/
@[simp] theorem forM_eq_success {ι : Type v} {f : ι → Attempt φ ε PUnit.{u + 1}} {xs : List ι}
    {u : PUnit.{u + 1}} : xs.forM f = success u ↔ ∀ x ∈ xs, f x = success ⟨⟩ := by
  induction xs with
  | nil => simp
  | cons x xs ih =>
      simp only [List.forM_eq_forM, List.forM_cons, bind_eq_success] at ih ⊢
      constructor
      · rintro ⟨_, hx, hxs⟩
        exact List.forall_mem_cons.mpr ⟨hx, ih.mp hxs⟩
      · intro h
        exact ⟨_, (List.forall_mem_cons.mp h).1, ih.mpr (List.forall_mem_cons.mp h).2⟩

/-- A loop of checks that do not report raises nothing when each of them passes. -/
theorem forM_returns {ι : Type v} {f : ι → Attempt φ ε PUnit.{u + 1}} {xs : List ι}
    (hreport : ∀ x ∈ xs, ∀ e, f x ≠ failure e) :
    (xs.forM f).Returns ↔ ∀ x ∈ xs, f x = success ⟨⟩ := by
  constructor
  · intro h
    rw [← forM_eq_success (u := ⟨⟩)]
    obtain ⟨u, hu⟩ := h.succeeds fun e he => by
      induction xs with
      | nil => cases he
      | cons x xs ih =>
          rw [List.forM_eq_forM, List.forM_cons] at he h
          rcases bind_eq_failure.mp he with hx | ⟨u, hu, hxs⟩
          · exact hreport x List.mem_cons_self e hx
          · exact ih (fun y hy => hreport y (List.mem_cons_of_mem _ hy))
              ((returns_bind.mp h).2 u hu) hxs
    exact hu
  · intro h
    rw [forM_eq_success (u := ⟨⟩) |>.mpr h]
    exact returns_success _

/-- A loop that collects succeeds when each of its rounds does. -/
theorem mapM_eq_success {ι : Type v} {f : ι → Attempt φ ε α} {xs : List ι} {ys : List α} :
    xs.mapM f = success ys ↔ List.Forall₂ (fun x y => f x = success y) xs ys := by
  induction xs generalizing ys with
  | nil => simp [eq_comm]
  | cons x xs ih =>
      simp only [List.mapM_cons, bind_eq_success, pure_eq, success.injEq,
        List.forall₂_cons_left_iff]
      constructor
      · rintro ⟨y, hy, zs, hzs, rfl⟩
        exact ⟨y, zs, hy, ih.mp hzs, rfl⟩
      · rintro ⟨y, zs, hy, hzs, rfl⟩
        exact ⟨y, hy, zs, ih.mpr hzs, rfl⟩

theorem returns_mapM {ι : Type v} {f : ι → Attempt φ ε α} {xs : List ι}
    (h : ∀ x ∈ xs, (f x).Returns) : Returns (xs.mapM f) := by
  induction xs with
  | nil => simp
  | cons x xs ih =>
      obtain ⟨hx, hxs⟩ := List.forall_mem_cons.mp h
      rw [List.mapM_cons]
      exact returns_bind.mpr ⟨hx, fun _ _ => returns_bind.mpr ⟨ih hxs, by simp⟩⟩

theorem mapM_congr {ι : Type v} {f g : ι → Attempt φ ε α} {xs : List ι}
    (h : ∀ x ∈ xs, f x = g x) : xs.mapM f = xs.mapM g := by
  induction xs with
  | nil => rfl
  | cons x xs ih =>
      rw [List.mapM_cons, List.mapM_cons, h x List.mem_cons_self,
        ih fun y hy => h y (List.mem_cons_of_mem _ hy)]

/-- What a successful loop has collected. -/
theorem mem_of_mapM {ι : Type v} {f : ι → Attempt φ ε α} {xs : List ι} {ys : List α} {y : α}
    (h : xs.mapM f = success ys) : y ∈ ys ↔ ∃ x ∈ xs, f x = success y := by
  induction xs generalizing ys with
  | nil =>
      obtain rfl : [] = ys := success.inj h
      simp
  | cons x xs ih =>
      simp only [List.mapM_cons, bind_eq_success, pure_eq, success.injEq] at h
      obtain ⟨z, hz, zs, hzs, rfl⟩ := h
      rw [List.mem_cons, ih hzs, List.exists_mem_cons_iff, hz, success.injEq, eq_comm]

/-- What a successful loop does, by what its first round and the rest of it do. -/
theorem foldlM_induct {ι : Type v} {f : α → ι → Attempt φ ε α} {P : List ι → α → α → Prop}
    (nil : ∀ a, P [] a a)
    (cons : ∀ x xs a b c, f a x = success b → P xs b c → P (x :: xs) a c)
    {xs : List ι} {a c : α} (h : xs.foldlM f a = success c) : P xs a c := by
  induction xs generalizing a with
  | nil =>
      obtain rfl : a = c := by simpa using h
      exact nil a
  | cons x xs ih =>
      rw [List.foldlM_cons] at h
      obtain ⟨b, hb, hc⟩ := bind_eq_success.mp h
      exact cons x xs a b c hb (ih hc)

theorem foldlM_eq_foldl {ι : Type v} {τ : Type*} {v : τ → α} {f : α → ι → Attempt φ ε α}
    {g : τ → ι → τ} {xs : List ι} (hstep : ∀ x ∈ xs, ∀ t, f (v t) x = success (v (g t x))) (t : τ) :
    xs.foldlM f (v t) = success (v (xs.foldl g t)) := by
  induction xs generalizing t with
  | nil => rfl
  | cons x xs ih =>
      rw [List.foldlM_cons, hstep x List.mem_cons_self, success_bind]
      exact ih (fun y hy => hstep y (List.mem_cons_of_mem _ hy)) (g t x)

/-- A loop whose rounds follow those of a pure loop, as long as a measure stays within its limit. -/
theorem foldlM_related {ι : Type v} {τ : Type*} {R : α → τ → Prop} {m : τ → ℕ} {limit : ℕ}
    {f : α → ι → Attempt φ ε α} {g : τ → ι → τ} {xs : List ι} {a : α} {t : τ}
    (hgrow : ∀ t x, m t ≤ m (g t x))
    (hstep : ∀ x ∈ xs, ∀ a t, R a t → m (g t x) ≤ limit → ∃ b, f a x = success b ∧ R b (g t x))
    (h : R a t) (hlimit : m (xs.foldl g t) ≤ limit) :
    ∃ b, xs.foldlM f a = success b ∧ R b (xs.foldl g t) := by
  induction xs generalizing a t with
  | nil => exact ⟨a, rfl, h⟩
  | cons x xs ih =>
      have hrest : ∀ (ys : List ι) (t : τ), m t ≤ m (ys.foldl g t) := by
        intro ys
        induction ys with
        | nil => exact fun t => Nat.le_refl _
        | cons y ys ihys => exact fun t => Nat.le_trans (hgrow t y) (ihys (g t y))
      obtain ⟨b, hb, hrelated⟩ :=
        hstep x List.mem_cons_self a t h (Nat.le_trans (hrest xs (g t x)) hlimit)
      obtain ⟨c, hc, hend⟩ := ih (fun y hy => hstep y (List.mem_cons_of_mem _ hy)) hrelated hlimit
      exact ⟨c, by rw [List.foldlM_cons, hb, success_bind, hc], hend⟩

theorem forall_of_foldlM {ι : Type v} {f : α → ι → Attempt φ ε α} {P : ι → Prop} {xs : List ι}
    {a c : α} (hround : ∀ a x b, f a x = success b → P x) (h : xs.foldlM f a = success c) :
    ∀ x ∈ xs, P x := by
  refine foldlM_induct (P := fun xs _ _ => ∀ x ∈ xs, P x) ?_ ?_ h
  · simp
  · intro x xs a b c hb hxs
    exact List.forall_mem_cons.mpr ⟨hround a x b hb, hxs⟩

/-- What every round preserves holds after a successful loop. -/
theorem foldlM_invariant {ι : Type v} {f : α → ι → Attempt φ ε α} {I : α → Prop} {xs : List ι}
    {a c : α} (hstep : ∀ x ∈ xs, ∀ a b, f a x = success b → I a → I b)
    (h : xs.foldlM f a = success c) (ha : I a) : I c := by
  induction xs generalizing a with
  | nil =>
      obtain rfl : a = c := by simpa using h
      exact ha
  | cons x xs ih =>
      rw [List.foldlM_cons] at h
      obtain ⟨b, hb, hc⟩ := bind_eq_success.mp h
      exact ih (fun y hy => hstep y (List.mem_cons_of_mem _ hy)) hc
        (hstep x (List.mem_cons_self ..) a b hb ha)

/-! ## Handlers -/

/-- Turn the exceptions that `handler` accepts into failures. -/
def absorb (handler : ε → Option φ) : Attempt φ ε α → Attempt φ ε α
  | raised e => (handler e).elim (raised e) failure
  | x => x

@[simp] theorem absorb_eq_success {handler : ε → Option φ} {x : Attempt φ ε α} {a : α} :
    x.absorb handler = success a ↔ x = success a := by
  cases x with
  | success b => simp [absorb]
  | failure e => simp [absorb]
  | raised e => cases h : handler e <;> simp [absorb, h]

end Attempt
